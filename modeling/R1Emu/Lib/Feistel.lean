import Mathlib.Logic.Equiv.Defs

/-!
# Feistel networks

A block has two halves. A round mixes one half with a function of the other, and the halves change
places. Mixing twice with one value changes nothing, so that the rounds in the opposite order undo
a network, whatever the functions are.
-/
namespace R1Emu.Lib.Feistel

variable {α : Type*} (mix : α → α → α)

/-- Mixing with a value is undone by mixing with it again. -/
def Cancels : Prop := ∀ a b, mix (mix a b) b = a

def round (f : α → α) (block : α × α) : α × α := (mix block.2 (f block.1), block.1)

/-- The rounds one after the other. -/
def network (rounds : List (α → α)) (block : α × α) : α × α :=
  rounds.foldl (fun block f => round mix f block) block

@[simp] theorem network_nil (block : α × α) : network mix [] block = block := rfl

@[simp] theorem network_cons (f : α → α) (rounds : List (α → α)) (block : α × α) :
    network mix (f :: rounds) block = network mix rounds (round mix f block) := rfl

theorem network_append (rounds rounds' : List (α → α)) (block : α × α) :
    network mix (rounds ++ rounds') block = network mix rounds' (network mix rounds block) :=
  List.foldl_append

/-- Keys are mixed into one half in front of the rounds and into the other behind them, and the
halves change places at the end. -/
def cipher (first last : α) (rounds : List (α → α)) (block : α × α) : α × α :=
  let block := network mix rounds (mix block.1 first, block.2)
  (mix block.2 last, block.1)

variable {mix}

theorem round_swap (hmix : Cancels mix) (f : α → α) (block : α × α) :
    round mix f (round mix f block).swap = block.swap := by
  rw [round, round, Prod.swap_prod_mk, hmix]
  rfl

theorem network_reverse (hmix : Cancels mix) (rounds : List (α → α)) (block : α × α) :
    network mix rounds.reverse (network mix rounds block).swap = block.swap := by
  induction rounds generalizing block with
  | nil => rfl
  | cons f rounds ih =>
    rw [network_cons, List.reverse_cons, network_append, ih, network_cons, network_nil,
      round_swap hmix]

/-- The keys in the opposite order give the inverse. -/
theorem cipher_reverse (hmix : Cancels mix) (first last : α) (rounds : List (α → α))
    (block : α × α) :
    cipher mix last first rounds.reverse (cipher mix first last rounds block) = block := by
  have hnetwork := network_reverse hmix rounds (mix block.1 first, block.2)
  generalize hout : network mix rounds (mix block.1 first, block.2) = out at hnetwork
  have hback : network mix rounds.reverse (mix (mix out.2 last) last, out.1) =
      (block.2, mix block.1 first) := by
    rw [hmix]
    exact hnetwork
  rw [cipher, cipher, hout]
  simp only [hback]
  rw [hmix]

/-- A cipher and its inverse. -/
def cipherEquiv (hmix : Cancels mix) (first last : α) (rounds : List (α → α)) :
    α × α ≃ α × α where
  toFun := cipher mix first last rounds
  invFun := cipher mix last first rounds.reverse
  left_inv := cipher_reverse hmix first last rounds
  right_inv block := by
    have h := cipher_reverse hmix last first rounds.reverse block
    rwa [List.reverse_reverse] at h

/-! ### Round functions that are not known -/

variable (mix) in
/-- A key that is mixed into a half alone is a round too. -/
theorem cipher_eq_network (first last : α) (rounds : List (α → α)) (block : α × α) :
    cipher mix first last rounds block =
      network mix ((fun _ => first) :: rounds ++ [fun _ => last]) block.swap := by
  rw [network_append, network_cons, network_cons, network_nil]
  rfl

theorem network_injective (hmix : Cancels mix) (rounds : List (α → α)) :
    Function.Injective (network mix rounds) := by
  intro block block' h
  have hswap : block.swap = block'.swap := by
    rw [← network_reverse hmix rounds, h, network_reverse hmix]
  exact Prod.swap_inj.mp hswap

/-- One block tells what the functions of two neighbouring rounds gave for it. -/
theorem network_pair (hmix : Cancels mix) (hleft : ∀ a, Function.Injective (mix a))
    {before after : List (α → α)} {f g f' g' : α → α} {block : α × α}
    (h : network mix (before ++ f :: g :: after) block =
      network mix (before ++ f' :: g' :: after) block) : ∃ x y, f x = f' x ∧ g y = g' y := by
  simp only [network_append, network_cons] at h
  have hrounds := network_injective hmix after h
  generalize network mix before block = middle at hrounds
  obtain ⟨hsecond, hfirst⟩ := Prod.mk.inj hrounds
  refine ⟨middle.1, mix middle.2 (f middle.1), hleft _ hfirst, ?_⟩
  simp only [round, hleft _ hfirst] at hsecond ⊢
  exact hleft _ hsecond

end R1Emu.Lib.Feistel
