import R1Emu.Commander.InventoryIndex
import Mathlib.Logic.Equiv.Basic

/-!
# Items that change places

A swap exchanges what two handles hold, while the hash and the bags go on listing the handles.
So an inventory in which items have changed places is one in which none have, but for the
contents of its handles. What a swap does is said of the items that the handles hold, and it
is what the client asked for only where these are the items with the uids.
-/
namespace R1Emu.Commander
open R1Emu.Actor R1Emu.Lib R1Emu.Lib.Transition

variable {Key : Type} (actorGenKey : UInt64 → Key)

/-- The store whose handles hold what they were made for, as if nothing had been freed. -/
def restored (self : Store Key) (made : ItemHandle → Option ItemPtr) : Store Key :=
  { self with cell := made, destroyed := [] }

/-- Every handle holds an item of the category that it was made for, which has not been freed, no
item is held twice, and none is equipped. -/
structure Shuffled (store : Store Key) (made : ItemHandle → Option ItemPtr)
    (added : List ItemPtr) : Prop where
  sound : Sound actorGenKey (restored store made) added
  allocated : ∀ handle, store.cell handle = none ↔ made handle = none
  category : ∀ handle i k, store.cell handle = some i → made handle = some k →
    (store.item i).category = (store.item k).category
  held_once : ∀ handle handle' i, store.cell handle = some i → store.cell handle' = some i →
    handle = handle'
  held_added : ∀ handle i, store.cell handle = some i → i ∈ added
  free : ∀ slot, store.equippedItems slot = none
  alive : ∀ handle i, store.cell handle = some i → i ∉ store.destroyed
  freed_added : ∀ i ∈ store.destroyed, i ∈ added

/-- Two items with the uids are in one bag and exchange their positions; nothing else changes. -/
def ChangePlaces (self self' : Store Key) (actorId1 actorId2 : UInt64) : Prop :=
  ∃ item1 item2 category, (self.item item1).uid = actorId1 ∧ (self.item item2).uid = actorId2 ∧
    item1 ∈ self.bagged category ∧ item2 ∈ self.bagged category ∧
    (∀ category, self'.bagged category = (self.bagged category).map (Equiv.swap item1 item2)) ∧
    self' = { self with cell := self'.cell }

/-- What a swap should do: it ends, it fails and changes nothing or two items change places, and
the same swap again restores what was there. -/
def Swaps (self : Store Key) (actorId1 actorId2 : UInt64) : Prop :=
  ∃ swapped self', inventorySwapItems actorGenKey self actorId1 actorId2 = some (swapped, self') ∧
    (swapped = false → self' = self) ∧
    (swapped = true → ChangePlaces self self' actorId1 actorId2) ∧
    inventorySwapItems actorGenKey self' actorId1 actorId2 = some (swapped, self)

/-- Both uids are found, and the handles found hold the items with the uids, unless these are
in different bags or the uids are equal. -/
def Swappable (self : Store Key) (actorId1 actorId2 : UInt64) : Prop :=
  ∃ item1 item2, self.found actorGenKey actorId1 = some item1 ∧
    self.found actorGenKey actorId2 = some item2 ∧
    ((self.item item1).category ≠ (self.item item2).category ∨
      (actorId1 = actorId2 ∧ ∃ item category, item ∈ self.bagged category ∧
        (self.item item).uid = actorId1) ∨
      ((self.item item1).uid = actorId1 ∧ (self.item item2).uid = actorId2) ∨
      (self.item item1).uid = actorId2 ∧ (self.item item2).uid = actorId1)

/-- Items are used as in the operations that keep the indexes, and none is equipped. -/
def Steady (self : Ledger Key) (op : Operation) : Prop :=
  Permitted actorGenKey self op ∧ ¬ Equips actorGenKey self op

/-- The two handles have exchanged what they hold. -/
def exchanged (self : Store Key) (handle1 handle2 : ItemHandle) (item1 item2 : ItemPtr) :
    Store Key :=
  { self with
    cell := Function.update (Function.update self.cell handle1 (some item2)) handle2 (some item1) }

section Shuffled
variable {actorGenKey} {self : Store Key} {made : ItemHandle → Option ItemPtr}
  {added : List ItemPtr} {item : ItemPtr}

theorem shuffled_start (item : ItemPtr → Item) :
    Shuffled actorGenKey (Ledger.start item : Ledger Key).toStore (fun _ => none) [] where
  sound := sound_start item
  allocated _ := Iff.rfl
  category _ _ _ hi := by cases hi
  held_once _ _ _ hi := by cases hi
  held_added _ _ hi := by cases hi
  free _ := rfl
  alive _ _ _ := List.not_mem_nil
  freed_added _ hi := absurd hi List.not_mem_nil

/-- A handle in the hash holds an item. -/
theorem Shuffled.cell_ne_none (h : Shuffled actorGenKey self made added) (key : Key)
    (handle : ItemHandle) (hkey : self.items key = some handle) : self.cell handle ≠ none :=
  (h.allocated handle).not.mpr (h.sound.cell_ne_none key handle hkey)

/-- What is found for a uid is held by a handle that was made for the item with the uid. -/
theorem Shuffled.held (h : Shuffled actorGenKey self made added)
    (hgen : Function.Injective actorGenKey) {uid : UInt64} {handle : ItemHandle}
    (hfound : self.items (actorGenKey uid) = some handle) :
    ∃ i k, self.cell handle = some i ∧ made handle = some k ∧ (self.item k).uid = uid := by
  obtain ⟨k, hk, huid⟩ := h.sound.held hgen hfound
  have hk' : made handle = some k := hk
  obtain ⟨i, hi⟩ := Option.ne_none_iff_exists'.mp (h.cell_ne_none _ handle hfound)
  exact ⟨i, k, hi, hk', huid⟩

/-- The item that a found handle holds is in the bag of its category. -/
theorem Shuffled.mem_bagged (h : Shuffled actorGenKey self made added) {key : Key}
    {handle : ItemHandle} (hkey : self.items key = some handle)
    (hcell : self.cell handle = some item) : item ∈ self.bagged (self.item item).category := by
  obtain ⟨c, hc⟩ := h.sound.agree.index_entry key handle hkey
  obtain ⟨k, hk, he⟩ := Option.map_eq_some_iff.mp hc
  have hcategory : (self.item item).category = c :=
    (h.category handle item k hcell hk).trans (Prod.mk.inj he).2
  rw [hcategory]
  exact List.mem_filterMap.mpr ⟨handle, h.sound.agree.mem_of_index hkey hc, hcell⟩

end Shuffled

section Steps
variable [DecidableEq Key] {actorGenKey} {self : Store Key}
  {made : ItemHandle → Option ItemPtr} {added : List ItemPtr} {item : ItemPtr}

/-- A new handle holds the item it was made for. -/
theorem Shuffled.add (h : Shuffled actorGenKey self made added)
    (hgen : Function.Injective actorGenKey)
    (hnew : ∀ j ∈ added, (self.item j).uid ≠ (self.item item).uid) :
    self.items (actorGenKey (self.item item).uid) = none ∧
      Shuffled actorGenKey (shelve actorGenKey self item)
        (Function.update made self.next (some item)) (item :: added) := by
  obtain ⟨hitems, hsound⟩ := h.sound.add hgen hnew
  have hout : item ∉ added := fun hmem => hnew item hmem rfl
  have hholds : ∀ handle i, (shelve actorGenKey self item).cell handle = some i →
      handle = self.next ∧ i = item ∨ handle ≠ self.next ∧ self.cell handle = some i := by
    intro handle i hi
    by_cases he : handle = self.next
    · simp only [shelve, he, Function.update_self, Option.some.injEq] at hi
      exact .inl ⟨he, hi.symm⟩
    · simp only [shelve, Function.update_of_ne he] at hi
      exact .inr ⟨he, hi⟩
  refine ⟨hitems, hsound, ?_, ?_, ?_, ?_, h.free, ?_, ?_⟩
  · intro handle
    by_cases he : handle = self.next
    · simp [shelve, he]
    · simp only [shelve, Function.update_of_ne he]
      exact h.allocated handle
  · intro handle i k hi hk
    rcases hholds handle i hi with ⟨rfl, rfl⟩ | ⟨he, hi⟩
    · rw [Function.update_self] at hk
      rw [Option.some.inj hk]
    · rw [Function.update_of_ne he] at hk
      exact h.category handle i k hi hk
  · intro handle handle' i hi hi'
    rcases hholds handle i hi with ⟨rfl, rfl⟩ | ⟨-, hi⟩ <;>
      rcases hholds handle' _ hi' with ⟨rfl, he⟩ | ⟨-, hi'⟩
    · rfl
    · exact absurd (h.held_added handle' _ hi') hout
    · exact absurd (h.held_added handle _ (he ▸ hi)) hout
    · exact h.held_once handle handle' i hi hi'
  · intro handle i hi
    rcases hholds handle i hi with ⟨-, rfl⟩ | ⟨-, hi⟩
    · exact List.mem_cons_self
    · exact List.mem_cons_of_mem _ (h.held_added handle i hi)
  · intro handle i hi hfreed
    rcases hholds handle i hi with ⟨-, rfl⟩ | ⟨-, hi⟩
    · exact hout (h.freed_added i hfreed)
    · exact h.alive handle i hi hfreed
  · exact fun i hi => List.mem_cons_of_mem _ (h.freed_added i hi)

/-- The handle found for an item is freed, with whatever it holds. -/
theorem Shuffled.remove (h : Shuffled actorGenKey self made added)
    (hgen : Function.Injective actorGenKey) (hmem : item ∈ added) {handle : ItemHandle}
    {held : ItemPtr} (hfound : self.items (actorGenKey (self.item item).uid) = some handle)
    (hcell : self.cell handle = some held) :
    Shuffled actorGenKey (unshelve actorGenKey self item handle held)
      (Function.update made handle none) added := by
  obtain ⟨i, k, -, hk, huid⟩ := h.held hgen hfound
  have hkmem : k ∈ added := h.sound.hashed_added k ⟨_, handle, hfound, hk⟩
  obtain rfl := h.sound.added_uid k hkmem item hmem huid
  have hsound := h.sound.remove hfound hk
  have hholds : ∀ other i, (unshelve actorGenKey self k handle held).cell other = some i →
      other ≠ handle ∧ self.cell other = some i := by
    intro other i hi
    by_cases he : other = handle
    · simp [unshelve, he] at hi
    · simp only [unshelve, Function.update_of_ne he] at hi
      exact ⟨he, hi⟩
  constructor
  · exact ⟨hsound.agree, hsound.fresh, hsound.hashed_added, hsound.equipped_added,
      hsound.equipped_out, hsound.equipped_once, hsound.added_uid, fun _ _ => List.not_mem_nil,
      fun _ hi => absurd hi List.not_mem_nil⟩
  · intro other
    by_cases he : other = handle
    · simp [unshelve, he]
    · simp only [unshelve, Function.update_of_ne he]
      exact h.allocated other
  · intro other i k hi hk
    obtain ⟨he, hi⟩ := hholds other i hi
    rw [Function.update_of_ne he] at hk
    exact h.category other i k hi hk
  · exact fun other other' i hi hi' =>
      h.held_once other other' i (hholds other i hi).2 (hholds other' i hi').2
  · exact fun other i hi => h.held_added other i (hholds other i hi).2
  · exact h.free
  · intro other i hi hfreed
    obtain ⟨he, hother⟩ := hholds other i hi
    rcases List.mem_cons.mp hfreed with rfl | hfreed
    · exact he (h.held_once other handle i hother hcell)
    · exact h.alive other i hother hfreed
  · intro i hi
    rcases List.mem_cons.mp hi with rfl | hi
    · exact h.held_added handle i hcell
    · exact h.freed_added i hi

end Steps

section Exchanges
variable {actorGenKey} {self : Store Key} {made : ItemHandle → Option ItemPtr}
  {added : List ItemPtr} {handle1 handle2 : ItemHandle} {item1 item2 : ItemPtr}

/-- Each handle holds the item that has taken the place of the one it held. -/
theorem Shuffled.exchanged_cell (h : Shuffled actorGenKey self made added)
    (hcell1 : self.cell handle1 = some item1) (hcell2 : self.cell handle2 = some item2)
    (handle : ItemHandle) : (exchanged self handle1 handle2 item1 item2).cell handle =
      (self.cell handle).map (Equiv.swap item1 item2) := by
  by_cases he2 : handle = handle2
  · rw [he2, hcell2, Option.map_some, Equiv.swap_apply_right]
    exact Function.update_self ..
  · have hside : (exchanged self handle1 handle2 item1 item2).cell handle =
        Function.update self.cell handle1 (some item2) handle := Function.update_of_ne he2 _ _
    rw [hside]
    by_cases he1 : handle = handle1
    · rw [he1, hcell1, Option.map_some, Equiv.swap_apply_left, Function.update_self]
    · rw [Function.update_of_ne he1]
      cases hcell : self.cell handle with
      | none => rfl
      | some i =>
        rw [Option.map_some, Equiv.swap_apply_of_ne_of_ne]
        · exact fun he => he1 (h.held_once handle handle1 i hcell (he ▸ hcell1))
        · exact fun he => he2 (h.held_once handle handle2 i hcell (he ▸ hcell2))

/-- The two items change places in their bag, and every other item keeps its own. -/
theorem Shuffled.exchanged_bagged (h : Shuffled actorGenKey self made added)
    (hcell1 : self.cell handle1 = some item1) (hcell2 : self.cell handle2 = some item2)
    (category : ItemCategory) : (exchanged self handle1 handle2 item1 item2).bagged category =
      (self.bagged category).map (Equiv.swap item1 item2) := by
  rw [Store.bagged, Store.bagged, List.map_filterMap]
  exact List.filterMap_congr fun handle _ => h.exchanged_cell hcell1 hcell2 handle

theorem Shuffled.exchange (h : Shuffled actorGenKey self made added)
    (hcell1 : self.cell handle1 = some item1) (hcell2 : self.cell handle2 = some item2)
    (hcategory : (self.item item1).category = (self.item item2).category) :
    Shuffled actorGenKey (exchanged self handle1 handle2 item1 item2) made added := by
  have hcell := h.exchanged_cell hcell1 hcell2
  have hholds : ∀ handle i, (exchanged self handle1 handle2 item1 item2).cell handle = some i →
      self.cell handle = some (Equiv.swap item1 item2 i) := by
    intro handle i hi
    rw [hcell] at hi
    obtain ⟨k, hk, rfl⟩ := Option.map_eq_some_iff.mp hi
    rw [Equiv.swap_apply_self, hk]
  have hsame : ∀ i, (self.item (Equiv.swap item1 item2 i)).category = (self.item i).category := by
    intro i
    rw [Equiv.swap_apply_def]
    split
    next he => rw [he, hcategory]
    next =>
      split
      next he => rw [he, hcategory]
      next => rfl
  have hmem : ∀ handle i, (exchanged self handle1 handle2 item1 item2).cell handle = some i →
      ∃ other, self.cell other = some i := by
    intro handle i hi
    have hk := hholds handle i hi
    rw [Equiv.swap_apply_def] at hk
    split at hk
    next he => exact ⟨handle1, he ▸ hcell1⟩
    next =>
      split at hk
      next he => exact ⟨handle2, he ▸ hcell2⟩
      next => exact ⟨handle, hk⟩
  constructor
  · exact h.sound
  · intro handle
    rw [hcell, Option.map_eq_none_iff]
    exact h.allocated handle
  · intro handle i k hi hk
    exact (hsame i).symm.trans (h.category handle _ k (hholds handle i hi) hk)
  · exact fun handle handle' i hi hi' =>
      h.held_once handle handle' _ (hholds handle i hi) (hholds handle' i hi')
  · intro handle i hi
    obtain ⟨other, hother⟩ := hmem handle i hi
    exact h.held_added other i hother
  · exact h.free
  · intro handle i hi
    obtain ⟨other, hother⟩ := hmem handle i hi
    exact h.alive other i hother
  · exact h.freed_added

/-- A second exchange puts both items back. -/
theorem exchanged_exchanged (hcell1 : self.cell handle1 = some item1)
    (hcell2 : self.cell handle2 = some item2) :
    exchanged (exchanged self handle1 handle2 item1 item2) handle1 handle2 item2 item1 = self := by
  have hcell : Function.update (Function.update (exchanged self handle1 handle2 item1 item2).cell
      handle1 (some item1)) handle2 (some item2) = self.cell := by
    funext handle
    by_cases he2 : handle = handle2
    · rw [he2, Function.update_self, hcell2]
    · rw [Function.update_of_ne he2]
      by_cases he1 : handle = handle1
      · rw [he1, Function.update_self, hcell1]
      · rw [Function.update_of_ne he1, exchanged]
        simp only [Function.update_of_ne he2, Function.update_of_ne he1]
  rw [exchanged, hcell]
  rfl

theorem inventorySwapItems_found {actorId1 actorId2 : UInt64}
    (hfound1 : self.items (actorGenKey actorId1) = some handle1)
    (hfound2 : self.items (actorGenKey actorId2) = some handle2)
    (hcell1 : self.cell handle1 = some item1) (hcell2 : self.cell handle2 = some item2)
    (halive1 : item1 ∉ self.destroyed) (halive2 : item2 ∉ self.destroyed) :
    inventorySwapItems actorGenKey self actorId1 actorId2 =
      if (self.item item1).category ≠ (self.item item2).category then some (false, self)
      else some (true, exchanged self handle1 handle2 item1 item2) := by
  simp only [inventorySwapItems, hfound1, hfound2, hcell1, hcell2, liveItem_eq halive1,
    liveItem_eq halive2, Option.bind_eq_bind, Option.bind_some]
  rfl

theorem inventorySwapItems_finds {actorId1 actorId2 : UInt64} {r : Bool × Store Key}
    (h : inventorySwapItems actorGenKey self actorId1 actorId2 = some r) :
    ∃ handle1 handle2 item1 item2, self.items (actorGenKey actorId1) = some handle1 ∧
      self.items (actorGenKey actorId2) = some handle2 ∧ self.cell handle1 = some item1 ∧
      self.cell handle2 = some item2 ∧ item1 ∉ self.destroyed ∧ item2 ∉ self.destroyed := by
  simp only [inventorySwapItems, Option.bind_eq_bind, Option.bind_eq_some_iff] at h
  obtain ⟨handle1, hfound1, handle2, hfound2, item1, hcell1, item2, hcell2, _, hlive1, _, hlive2,
    -⟩ := h
  exact ⟨handle1, handle2, item1, item2, hfound1, hfound2, hcell1, hcell2,
    (liveItem_eq_some hlive1).1, (liveItem_eq_some hlive2).1⟩

/-- Two items of one category that are found change places, and change back. -/
theorem inventorySwapItems_twice {actorId1 actorId2 : UInt64}
    (hfound1 : self.items (actorGenKey actorId1) = some handle1)
    (hfound2 : self.items (actorGenKey actorId2) = some handle2)
    (hcell1 : self.cell handle1 = some item1) (hcell2 : self.cell handle2 = some item2)
    (halive1 : item1 ∉ self.destroyed) (halive2 : item2 ∉ self.destroyed)
    (hcategory : (self.item item1).category = (self.item item2).category) :
    inventorySwapItems actorGenKey self actorId1 actorId2 =
        some (true, exchanged self handle1 handle2 item1 item2) ∧
      inventorySwapItems actorGenKey (exchanged self handle1 handle2 item1 item2) actorId1
        actorId2 = some (true, self) := by
  constructor
  · rw [inventorySwapItems_found hfound1 hfound2 hcell1 hcell2 halive1 halive2,
      if_neg (not_not.mpr hcategory)]
  · have hcell1' : (exchanged self handle1 handle2 item1 item2).cell handle1 = some item2 := by
      by_cases he : handle1 = handle2
      · have hsame : item1 = item2 := Option.some.inj (hcell1.symm.trans (he ▸ hcell2))
        rw [he, ← hsame]
        exact Function.update_self ..
      · exact (Function.update_of_ne he _ _).trans (Function.update_self ..)
    have hcell2' : (exchanged self handle1 handle2 item1 item2).cell handle2 = some item1 :=
      Function.update_self ..
    have hfound1' : (exchanged self handle1 handle2 item1 item2).items (actorGenKey actorId1) =
        some handle1 := hfound1
    have hfound2' : (exchanged self handle1 handle2 item1 item2).items (actorGenKey actorId2) =
        some handle2 := hfound2
    rw [inventorySwapItems_found hfound1' hfound2' hcell1' hcell2' halive2 halive1,
      exchanged_exchanged hcell1 hcell2]
    exact if_neg (not_not.mpr hcategory.symm)

/-- A swap that moves the items with the uids, if any, has found them. -/
theorem Shuffled.swappable (h : Shuffled actorGenKey self made added)
    (hgen : Function.Injective actorGenKey) {actorId1 actorId2 : UInt64} {swapped : Bool}
    {self' : Store Key}
    (hrun : inventorySwapItems actorGenKey self actorId1 actorId2 = some (swapped, self'))
    (hplaces : swapped = true → ChangePlaces self self' actorId1 actorId2) :
    Swappable actorGenKey self actorId1 actorId2 := by
  obtain ⟨handle1, handle2, item1, item2, hfound1, hfound2, hcell1, hcell2, halive1, halive2⟩ :=
    inventorySwapItems_finds hrun
  refine ⟨item1, item2, found_of_cell hfound1 hcell1, found_of_cell hfound2 hcell2, ?_⟩
  by_cases hcategory : (self.item item1).category = (self.item item2).category
  · rw [(inventorySwapItems_twice hfound1 hfound2 hcell1 hcell2 halive1 halive2 hcategory).1] at hrun
    cases hrun
    obtain ⟨i, j, category, huid1, huid2, hi, hj, hbags, -⟩ := hplaces rfl
    by_cases hids : actorId1 = actorId2
    · exact .inr (.inl ⟨hids, i, category, hi, huid1⟩)
    · have hne : item1 ≠ item2 := by
        rintro rfl
        obtain rfl := h.held_once handle1 handle2 item1 hcell1 hcell2
        obtain ⟨_, k, -, hk, hkuid⟩ := h.held hgen hfound1
        obtain ⟨_, k', -, hk', hkuid'⟩ := h.held hgen hfound2
        obtain rfl := Option.some.inj (hk.symm.trans hk')
        exact hids (hkuid.symm.trans hkuid')
      -- the item found first has the place of the other one
      have hplace : item2 = Equiv.swap i j item1 := by
        have hbag := hbags (self.item item1).category
        rw [h.exchanged_bagged hcell1 hcell2, List.map_inj_left] at hbag
        have hmoved := hbag item1 (h.mem_bagged hfound1 hcell1)
        rwa [Equiv.swap_apply_left] at hmoved
      rw [Equiv.swap_apply_def] at hplace
      split at hplace
      next he =>
        subst he hplace
        exact .inr (.inr (.inl ⟨huid1, huid2⟩))
      next =>
        split at hplace
        next he =>
          subst he hplace
          exact .inr (.inr (.inr ⟨huid2, huid1⟩))
        next => exact absurd hplace.symm hne
  · exact .inl hcategory

/-- The swap does what it should exactly where the items with the uids are found. -/
theorem Shuffled.swaps_iff (h : Shuffled actorGenKey self made added)
    (hgen : Function.Injective actorGenKey) (actorId1 actorId2 : UInt64) :
    Swaps actorGenKey self actorId1 actorId2 ↔ Swappable actorGenKey self actorId1 actorId2 := by
  constructor
  · rintro ⟨swapped, self', hrun, -, hplaces, -⟩
    exact h.swappable hgen hrun hplaces
  · rintro ⟨item1, item2, hitem1, hitem2, hcases⟩
    obtain ⟨handle1, hfound1, hcell1⟩ := Option.bind_eq_some_iff.mp hitem1
    obtain ⟨handle2, hfound2, hcell2⟩ := Option.bind_eq_some_iff.mp hitem2
    have halive1 := h.alive handle1 item1 hcell1
    have halive2 := h.alive handle2 item2 hcell2
    by_cases hcategory : (self.item item1).category = (self.item item2).category
    · obtain ⟨hswap, hback⟩ :=
        inventorySwapItems_twice hfound1 hfound2 hcell1 hcell2 halive1 halive2 hcategory
      refine ⟨true, _, hswap, Bool.noConfusion, fun _ => ?_, hback⟩
      have hbags := h.exchanged_bagged hcell1 hcell2
      have hmem1 := h.mem_bagged hfound1 hcell1
      have hmem2 := h.mem_bagged hfound2 hcell2
      rcases hcases with
        hother | ⟨rfl, item, category, hmem, huid⟩ | ⟨huid1, huid2⟩ | ⟨huid1, huid2⟩
      · exact absurd hcategory hother
      · obtain rfl := Option.some.inj (hitem1.symm.trans hitem2)
        refine ⟨item, item, category, huid, huid, hmem, hmem, fun c => ?_, rfl⟩
        rw [hbags, Equiv.swap_self, Equiv.swap_self]
      · exact ⟨item1, item2, _, huid1, huid2, hmem1, hcategory ▸ hmem2, hbags, rfl⟩
      · refine ⟨item2, item1, _, huid2, huid1, hcategory ▸ hmem2, hmem1, fun c => ?_, rfl⟩
        rw [hbags, Equiv.swap_comm]
    · have hswap := inventorySwapItems_found hfound1 hfound2 hcell1 hcell2 halive1 halive2
      rw [if_pos hcategory] at hswap
      exact ⟨false, self, hswap, fun _ => rfl, Bool.noConfusion, hswap⟩

end Exchanges

section Runs
variable [DecidableEq Key] {actorGenKey} {self self' : Ledger Key}
  {made : ItemHandle → Option ItemPtr}

/-- Every operation keeps the inventory one that differs only in what its handles hold. -/
theorem Shuffled.perform {op : Operation}
    (h : Shuffled actorGenKey self.toStore made self.added)
    (hgen : Function.Injective actorGenKey) (hsteady : Steady actorGenKey self op)
    (hrun : perform actorGenKey self op = some self') :
    ∃ made', Shuffled actorGenKey self'.toStore made' self'.added := by
  cases op with
  | addItem item =>
    obtain ⟨hnew, hadd⟩ := h.add hgen hsteady.1
    have halive : item ∉ self.destroyed := fun hi => hsteady.1 item (h.freed_added item hi) rfl
    rw [perform_addItem_new halive hnew] at hrun
    cases hrun
    exact ⟨_, hadd⟩
  | removeItem item =>
    obtain ⟨handle, -, hcell⟩ := List.mem_filterMap.mp hsteady.1
    have hmem := h.held_added handle item hcell
    have halive := h.alive handle item hcell
    cases hfound : self.items (actorGenKey (self.item item).uid) with
    | none =>
      rw [perform_removeItem_missing halive hfound] at hrun
      cases hrun
      exact ⟨made, h⟩
    | some handle =>
      obtain ⟨held, -, hcell, -⟩ := h.held hgen hfound
      rw [perform_removeItem_found halive hfound hcell (h.alive handle held hcell)] at hrun
      cases hrun
      exact ⟨_, h.remove hgen hmem hfound hcell⟩
  | swapItems actorId1 actorId2 =>
    obtain ⟨⟨r, store⟩, hswap, hrun⟩ := Option.bind_eq_some_iff.mp hrun
    cases hrun
    obtain ⟨handle1, handle2, item1, item2, hfound1, hfound2, hcell1, hcell2, halive1, halive2⟩ :=
      inventorySwapItems_finds hswap
    rw [inventorySwapItems_found hfound1 hfound2 hcell1 hcell2 halive1 halive2] at hswap
    split at hswap
    next =>
      cases hswap
      exact ⟨made, h⟩
    next hcategory =>
      cases hswap
      exact ⟨made, h.exchange hcell1 hcell2 (not_not.mp hcategory)⟩
  | equipItem actorId eqSlot =>
    rw [perform_equipItem_missing (missing_of_not_equips h.cell_ne_none hsteady.2)] at hrun
    rw [← Option.some.inj hrun]
    exact ⟨made, h⟩
  | unequipItem eqSlot =>
    rw [perform_unequipItem_eq h.free hrun]
    exact ⟨made, h⟩

theorem shuffled_of_reachable (hgen : Function.Injective actorGenKey)
    (h : ReachableUnder (inventorySystem actorGenKey) (Steady actorGenKey) self) :
    ∃ made, Shuffled actorGenKey self.toStore made self.added := by
  have hinv : Inductive (inventorySystem actorGenKey) (Steady actorGenKey)
      (fun s => ∃ made, Shuffled actorGenKey s.toStore made s.added) := by
    constructor
    · rintro s ⟨item, rfl⟩
      exact ⟨_, shuffled_start item⟩
    · rintro s op s' ⟨made, hs⟩ hsteady hrun
      exact hs.perform hgen hsteady hrun
  exact hinv.reachable h

end Runs

end R1Emu.Commander
