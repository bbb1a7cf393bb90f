import R1Emu.Zone.ItemInventoryList
import R1Emu.Commander.Ownership

/-!
# The indexes of the items in their bags

A category and a position are packed into one number, in which every category has a span of
5000. No bag ends at 5000 items: behind that an item has the index of an item of a category
that follows.
-/
namespace R1Emu.Zone
open R1Emu.Actor R1Emu.Commander R1Emu.Lib R1Emu.Lib.Transition

variable {Key : Type}

/-- `INT_MAX`. -/
def intMax : ℤ := 0x7fffffff

/-- The index that the search returns. One that does not fit an `int` overflows. -/
def bagIndex (self : Store Key) (bags : Cursors) (category : ItemCategory) (actorId : UInt64) :
    Option ℤ := do
  let (index, _) ← inventoryGetBagIndexByActorId self bags category actorId
  if index ≤ intMax then some index else none

/-- Every item has an index, which no other category and no other position has, and which is
not returned for a uid that is not in the bag. -/
structure IndexesInjective (inventory : Store Key) (bags : Cursors) : Prop where
  indexed : ∀ (category : ItemCategory) (position : ℕ) item,
    (inventory.bagged category)[position]? = some item →
      ∃ index, bagIndex inventory bags category (inventory.item item).uid = some index
  determines : ∀ (category : ItemCategory) (position : ℕ) item (category' : ItemCategory)
    (position' : ℕ) item' index,
    (inventory.bagged category)[position]? = some item →
    (inventory.bagged category')[position']? = some item' →
    bagIndex inventory bags category (inventory.item item).uid = some index →
    bagIndex inventory bags category' (inventory.item item').uid = some index →
      category = category' ∧ position = position'
  absent : ∀ category actorId,
    (∀ item ∈ inventory.bagged category, (inventory.item item).uid ≠ actorId) →
    ∃ index, bagIndex inventory bags category actorId = some index ∧
      ∀ category' item', item' ∈ inventory.bagged category' →
        bagIndex inventory bags category' (inventory.item item').uid ≠ some index

/-- The indexes of a bag fit an `int`, and end where those of the next bag with items begin. -/
structure Spaced (inventory : Store Key) : Prop where
  fits : ∀ category, 5000 * category.code + (inventory.bagged category).length < 2 ^ 31
  apart : ∀ category category', category.code < category'.code → inventory.bagged category' ≠ [] →
    (inventory.bagged category).length ≤ 5000 * (category'.code - category.code)

/-- An item is added. -/
def Adds : Operation → Prop
  | .addItem _ => True
  | _ => False

section Search
variable {self : Store Key} {inventoryCount : ℕ} {bags : Cursors} {category : ItemCategory}

/-- Handles that all hold items list them one by one. -/
theorem handle_at {itemHandles : List ItemHandle}
    (hheld : ∀ itemHandle ∈ itemHandles, ∃ item, self.cell itemHandle = some item)
    {position : ℕ} {item : ItemPtr}
    (hitem : (itemHandles.filterMap self.cell)[position]? = some item) :
    ∃ before itemHandle behind, itemHandles = before ++ itemHandle :: behind ∧
      before.length = position ∧ self.cell itemHandle = some item := by
  induction itemHandles generalizing position with
  | nil => cases hitem
  | cons itemHandle itemHandles ih =>
    obtain ⟨first, hfirst⟩ := hheld itemHandle List.mem_cons_self
    rw [List.filterMap_cons_some hfirst] at hitem
    cases position with
    | zero =>
      cases hitem
      exact ⟨[], itemHandle, itemHandles, rfl, rfl, hfirst⟩
    | succ position =>
      obtain ⟨before, found, behind, rfl, hlength, hcell⟩ :=
        ih (fun other hother => hheld other (List.mem_cons_of_mem _ hother)) hitem
      exact ⟨itemHandle :: before, found, behind, rfl, congrArg (· + 1) hlength, hcell⟩

/-- A search that passes every item ends without an index. -/
theorem bagIndexFrom_passes {actorId : UInt64} {itemHandles : List ItemHandle}
    (hothers : ∀ itemHandle ∈ itemHandles, ∃ item, self.cell itemHandle = some item ∧
      actorId ≠ (self.item item).uid) (index : ℕ) (passed : List ItemHandle) :
    bagIndexFrom self category actorId index passed itemHandles =
      some (-1, ⟨[], passed ++ itemHandles⟩) := by
  induction itemHandles generalizing index passed with
  | nil => rw [bagIndexFrom, List.append_nil]
  | cons itemHandle itemHandles ih =>
    obtain ⟨item, hcell, hne⟩ := hothers itemHandle List.mem_cons_self
    rw [bagIndexFrom, hcell]
    simp only [Option.bind_eq_bind, Option.bind_some, if_neg hne]
    rw [ih (fun other hother => hothers other (List.mem_cons_of_mem _ hother)), List.append_assoc,
      List.singleton_append]

theorem if_le_intMax (n : ℕ) :
    (if (n : ℤ) ≤ intMax then some (n : ℤ) else none) =
      if n < 2 ^ 31 then some (n : ℤ) else none := by
  by_cases hfits : n < 2 ^ 31
  · have hint : (n : ℤ) ≤ intMax := by
      rw [intMax]
      omega
    rw [if_pos hfits, if_pos hint]
  · have hint : ¬ (n : ℤ) ≤ intMax := by
      rw [intMax]
      omega
    rw [if_neg hfits, if_neg hint]

theorem bagIndex_eq {actorId : UInt64} {index : ℤ} {bags' : Cursors}
    (hsearch : inventoryGetBagIndexByActorId self bags category actorId = some (index, bags')) :
    bagIndex self bags category actorId = if index ≤ intMax then some index else none := by
  rw [bagIndex, hsearch]
  rfl

/-- The search stops on an item at its position. -/
theorem inventoryGetBagIndexByActorId_at (h : Listed self inventoryCount) (hbags : Lists self bags)
    {position : ℕ} {item : ItemPtr} (hitem : (self.bagged category)[position]? = some item) :
    ∃ bags', inventoryGetBagIndexByActorId self bags category (self.item item).uid =
      some (((5000 * category.code + (position + 1) : ℕ) : ℤ), bags') := by
  have hheld : ∀ itemHandle ∈ self.bags category, ∃ item, self.cell itemHandle = some item := by
    intro itemHandle hmem
    obtain ⟨item, hcell, -⟩ := h.held category itemHandle hmem
    exact ⟨item, hcell⟩
  obtain ⟨before, itemHandle, behind, hsplit, rfl, hcell⟩ := handle_at hheld hitem
  rw [inventoryGetBagIndexByActorId, hbags, hsplit,
    bagIndexFrom_stops (h.others hsplit hcell) hcell rfl 1 [] behind, Nat.add_comm 1]
  exact ⟨_, rfl⟩

/-- An item's index is made of its category and its position. -/
theorem bagIndex_found (h : Listed self inventoryCount) (hbags : Lists self bags) {position : ℕ}
    {item : ItemPtr} (hitem : (self.bagged category)[position]? = some item) :
    bagIndex self bags category (self.item item).uid =
      if 5000 * category.code + (position + 1) < 2 ^ 31 then
        some ((5000 * category.code + (position + 1) : ℕ) : ℤ) else none := by
  obtain ⟨bags', hsearch⟩ := inventoryGetBagIndexByActorId_at h hbags hitem
  rw [bagIndex_eq hsearch, if_le_intMax]

theorem bagIndex_absent (h : Listed self inventoryCount) (hbags : Lists self bags)
    {actorId : UInt64}
    (habsent : ∀ item ∈ self.bagged category, (self.item item).uid ≠ actorId) :
    bagIndex self bags category actorId = some (-1) := by
  have hothers : ∀ itemHandle ∈ self.bags category, ∃ item, self.cell itemHandle = some item ∧
      actorId ≠ (self.item item).uid := by
    intro itemHandle hmem
    obtain ⟨item, hcell, -⟩ := h.held category itemHandle hmem
    exact ⟨item, hcell, (habsent item (List.mem_filterMap.mpr ⟨itemHandle, hmem, hcell⟩)).symm⟩
  have hsearch : ∃ bags', inventoryGetBagIndexByActorId self bags category actorId =
      some (-1, bags') := by
    rw [inventoryGetBagIndexByActorId, hbags, bagIndexFrom_passes hothers]
    exact ⟨_, rfl⟩
  obtain ⟨bags', hsearch⟩ := hsearch
  rw [bagIndex_eq hsearch, if_pos (by decide)]

end Search

theorem code_injective {category category' : ItemCategory}
    (h : category.code = category'.code) : category = category' := by
  apply Option.some.inj
  rw [← ItemCategory.ofCode_code category, h, ItemCategory.ofCode_code]

/-- The indexes tell the items apart exactly when the bags are spaced. -/
theorem indexesInjective_iff {self : Store Key} {inventoryCount : ℕ} {bags : Cursors}
    (h : Listed self inventoryCount) (hbags : Lists self bags) :
    IndexesInjective self bags ↔ Spaced self := by
  constructor
  · intro hindexes
    have hfits : ∀ (category : ItemCategory) (position : ℕ),
        position < (self.bagged category).length →
          5000 * category.code + (position + 1) < 2 ^ 31 := by
      intro category position hposition
      obtain ⟨index, hindex⟩ :=
        hindexes.indexed category position _ (List.getElem?_eq_getElem hposition)
      rw [bagIndex_found h hbags (List.getElem?_eq_getElem hposition)] at hindex
      by_contra hlarge
      rw [if_neg hlarge] at hindex
      cases hindex
    constructor
    · intro category
      rcases Nat.eq_zero_or_pos (self.bagged category).length with hempty | hpos
      · rw [hempty]
        cases category <;> decide
      · have hlast := hfits category ((self.bagged category).length - 1) (by omega)
        omega
    · intro category category' hlt hnonempty
      by_contra hlong
      have hfirst : 0 < (self.bagged category').length := List.length_pos_iff.mpr hnonempty
      -- the item behind the span has the index of the first one of the other category
      have hbehind : 5000 * (category'.code - category.code) < (self.bagged category).length :=
        Nat.lt_of_not_le hlong
      have hindex := bagIndex_found h hbags (List.getElem?_eq_getElem hbehind)
      have hindex' := bagIndex_found h hbags (List.getElem?_eq_getElem hfirst)
      rw [if_pos (hfits category _ hbehind)] at hindex
      rw [if_pos (hfits category' 0 hfirst)] at hindex'
      have hsame : 5000 * category.code + (5000 * (category'.code - category.code) + 1) =
          5000 * category'.code + (0 + 1) := by
        omega
      rw [hsame] at hindex
      obtain ⟨rfl, -⟩ := hindexes.determines _ _ _ _ _ _ _ (List.getElem?_eq_getElem hbehind)
        (List.getElem?_eq_getElem hfirst) hindex hindex'
      exact absurd hlt (Nat.lt_irrefl _)
  · intro hspaced
    have hindex : ∀ (category : ItemCategory) (position : ℕ) item,
        (self.bagged category)[position]? = some item →
          bagIndex self bags category (self.item item).uid =
            some ((5000 * category.code + (position + 1) : ℕ) : ℤ) := by
      intro category position item hitem
      obtain ⟨hposition, -⟩ := List.getElem?_eq_some_iff.mp hitem
      have hfits := hspaced.fits category
      rw [bagIndex_found h hbags hitem, if_pos (by omega)]
    constructor
    · exact fun category position item hitem => ⟨_, hindex category position item hitem⟩
    · intro category position item category' position' item' index hitem hitem' hfound hfound'
      rw [hindex category position item hitem] at hfound
      rw [hindex category' position' item' hitem'] at hfound'
      have hsame : 5000 * category.code + (position + 1) =
          5000 * category'.code + (position' + 1) := by
        exact_mod_cast Option.some.inj (hfound.trans hfound'.symm)
      obtain ⟨hposition, -⟩ := List.getElem?_eq_some_iff.mp hitem
      obtain ⟨hposition', -⟩ := List.getElem?_eq_some_iff.mp hitem'
      rcases Nat.lt_trichotomy category.code category'.code with hlt | hcode | hgt
      · have hspan := hspaced.apart category category' hlt (List.ne_nil_of_length_pos (by omega))
        omega
      · exact ⟨code_injective hcode, by omega⟩
      · have hspan := hspaced.apart category' category hgt (List.ne_nil_of_length_pos (by omega))
        omega
    · intro category actorId habsent
      refine ⟨-1, bagIndex_absent h hbags habsent, fun category' item' hmem hfound => ?_⟩
      obtain ⟨position', hitem'⟩ := List.getElem?_of_mem hmem
      rw [hindex category' position' item' hitem'] at hfound
      have hnegative := Option.some.inj hfound
      omega

section Runs
variable [DecidableEq Key] {actorGenKey : UInt64 → Key}

/-- Adding items keeps the inventory's indexes in agreement and destroys nothing. -/
theorem kept_of_adds {s : Ledger Key}
    (h : ReachableUnder (inventorySystem actorGenKey) (fun _ op => Adds op) s) :
    Kept actorGenKey s ∧ s.destroyed = [] := by
  have hinv : Inductive (inventorySystem actorGenKey) (fun _ op => Adds op)
      (fun s => Kept actorGenKey s ∧ s.destroyed = []) := by
    constructor
    · rintro s ⟨item, rfl⟩
      exact ⟨kept_start item, rfl⟩
    · rintro s op s' ⟨hkept, hdestroyed⟩ hadds hrun
      cases op with
      | addItem item =>
        have halive : item ∉ s.destroyed := hdestroyed ▸ List.not_mem_nil
        refine ⟨hkept.add hrun, ?_⟩
        cases hkey : s.items (actorGenKey (s.item item).uid) with
        | none =>
          simp only [inventorySystem, perform, inventoryAddItem_new actorGenKey halive hkey,
            Option.bind_eq_bind, Option.bind_some, if_true, Option.pure_def,
            Option.some.injEq] at hrun
          exact hrun ▸ hdestroyed
        | some handle =>
          have htaken : (s.items (actorGenKey (s.item item).uid)).isSome := by rw [hkey]; rfl
          simp only [inventorySystem, perform, inventoryAddItem_taken actorGenKey halive htaken,
            Option.bind_eq_bind, Option.bind_some, Bool.false_eq_true, if_false, Option.pure_def,
            Option.some.injEq] at hrun
          exact hrun ▸ hdestroyed
      | _ => exact absurd hadds id
  exact hinv.reachable h

theorem listed_of_adds {s : Ledger Key}
    (h : ReachableUnder (inventorySystem actorGenKey) (fun _ op => Adds op) s) :
    ∃ n, s.HashSize n ∧ Listed s.toStore n := by
  have hagree := (kept_of_adds h).1.agree
  obtain ⟨n, hsize⟩ := exists_hashSize_of_agree hagree
  exact ⟨n, hsize, Listed.of_agree hagree hsize⟩

/-- In every inventory that is filled by adding items, wherever the cursors of its bags are, the
indexes tell the items apart exactly when the bags are spaced. -/
theorem bag_indexes_injective_iff {s : Ledger Key}
    (h : ReachableUnder (inventorySystem actorGenKey) (fun _ op => Adds op) s) {bags : Cursors}
    (hbags : Lists s.toStore bags) : IndexesInjective s.toStore bags ↔ Spaced s.toStore := by
  obtain ⟨n, -, hlisted⟩ := listed_of_adds h
  exact indexesInjective_iff hlisted hbags

end Runs

section Example

/-- The cursors before the first search. -/
def bagCursors (self : Store Key) : Cursors := fun category => ⟨[], self.bags category⟩

theorem bagCursors_lists (self : Store Key) : Lists self (bagCursors self) := fun _ => rfl

/-- Two consumables have different indexes. -/
theorem bag_indexes_injective_two : ∃ s : Ledger (List Char),
    s.bagged .consumable = [0, 1] ∧ (IndexesInjective s.toStore (bagCursors s.toStore) ↔
      Spaced s.toStore) := by
  have hreach : ∃ s, (inventorySystem hexKey).run (Ledger.start consumables)
      [.addItem 0, .addItem 1] = some s ∧ s.bagged .consumable = [0, 1] :=
    ⟨_, rfl, by decide +kernel⟩
  obtain ⟨s, hrun, hbag⟩ := hreach
  have hadds : ReachableUnder (inventorySystem hexKey) (fun _ op => Adds op) s :=
    ReachableUnder.run (.init ⟨consumables, rfl⟩) [.addItem 0, .addItem 1]
      ⟨trivial, fun _ _ => ⟨trivial, fun _ _ => trivial⟩⟩ hrun
  exact ⟨s, hbag, bag_indexes_injective_iff hadds (bagCursors_lists s.toStore)⟩

/-- Weapons with the uids 0 to 5000, and pieces of armor. -/
def crowd (item : ItemPtr) : Item :=
  ⟨UInt64.ofNat item, 0, 1, eqSlotNoSlot, if item < 5001 then .weapon {} else .armor {}⟩

/-- So many of them have been added, in order. -/
structure Crowded (n : ℕ) (s : Ledger (List Char)) : Prop where
  reachable : ReachableUnder (inventorySystem hexKey) (fun _ op => Adds op) s
  item : s.item = crowd
  bagged : ∀ category,
    s.bagged category = (List.range n).filter fun item => (crowd item).category = category

/-- A new item is at the end of its bag. -/
theorem shelve_bagged [DecidableEq Key] {actorGenKey : UInt64 → Key} {self : Store Key}
    (h : self.indexes.Agree (self.entry actorGenKey)) (hfresh : self.cell self.next = none)
    (item : ItemPtr) (category : ItemCategory) :
    (shelve actorGenKey self item).bagged category = self.bagged category ++
      if (self.item item).category = category then [item] else [] := by
  have hold : (self.bags category).filterMap (shelve actorGenKey self item).cell =
      self.bagged category := by
    refine List.filterMap_congr fun itemHandle hmem => ?_
    obtain ⟨held, hcell, -⟩ := held_of_agree h hmem
    have hne : itemHandle ≠ self.next := by
      rintro rfl
      rw [hfresh] at hcell
      cases hcell
    exact Function.update_of_ne hne _ _
  by_cases hcategory : (self.item item).category = category
  · subst hcategory
    rw [if_pos rfl, Store.bagged, ← hold]
    simp [shelve]
  · rw [if_neg hcategory, List.append_nil, ← hold]
    simp [Store.bagged, shelve, Function.update_of_ne (Ne.symm hcategory)]

theorem exists_crowded {n : ℕ} (hn : n ≤ 2 ^ 64) : ∃ s, Crowded n s := by
  induction n with
  | zero => exact ⟨Ledger.start crowd, .init ⟨crowd, rfl⟩, rfl, fun _ => rfl⟩
  | succ n ih =>
    obtain ⟨s, hreach, hitem, hbagged⟩ := ih (Nat.le_of_succ_le hn)
    obtain ⟨hkept, hdestroyed⟩ := kept_of_adds hreach
    have halive : n ∉ s.destroyed := hdestroyed ▸ List.not_mem_nil
    have hnew : s.items (hexKey (s.item n).uid) = none := by
      by_contra hne
      obtain ⟨handle, hfound⟩ := Option.ne_none_iff_exists'.mp hne
      obtain ⟨j, hcell, hkey⟩ := cell_of_listed hkept.agree hfound
      have hmem : j ∈ s.bagged (s.item j).category :=
        (hashed_iff_bagged hkept.agree _).mpr ⟨⟨_, handle, hfound, hcell⟩, rfl⟩
      rw [hbagged] at hmem
      have hlt : j < n := List.mem_range.mp (List.mem_filter.mp hmem).1
      have huid : UInt64.ofNat n = UInt64.ofNat j := by
        have hsame := hexKey_injective hkey
        rwa [hitem] at hsame
      have hnat := congrArg UInt64.toNat huid
      rw [UInt64.toNat_ofNat', UInt64.toNat_ofNat', Nat.mod_eq_of_lt hn,
        Nat.mod_eq_of_lt (Nat.lt_trans hlt hn)] at hnat
      exact absurd hnat (Nat.ne_of_gt hlt)
    have hrun : perform hexKey s (.addItem n) = some { s with
        toStore := shelve hexKey s.toStore n, added := n :: s.added, owned := n :: s.owned } := by
      simp [perform, inventoryAddItem_new hexKey halive hnew]
    have hadds : Adds (.addItem n) := trivial
    refine ⟨_, .step hreach hadds hrun, hitem, fun category => ?_⟩
    have hshelved := shelve_bagged hkept.agree (hkept.fresh _ (le_refl _)) n category
    rw [hitem, hbagged] at hshelved
    rw [List.range_succ, List.filter_append]
    refine hshelved.trans (congrArg _ ?_)
    by_cases hcategory : (crowd n).category = category <;> simp [hcategory]

/-- With 5001 weapons and a piece of armor, the last weapon has the index of the armor. -/
theorem bag_indexes_collide : ∃ s : Ledger (List Char),
    ReachableUnder (inventorySystem hexKey) (fun _ op => Adds op) s ∧
    (s.bagged .weapon)[5000]? = some 5000 ∧ (s.bagged .armor)[0]? = some 5001 ∧
    bagIndex s.toStore (bagCursors s.toStore) .weapon (s.item 5000).uid = some 10001 ∧
    bagIndex s.toStore (bagCursors s.toStore) .armor (s.item 5001).uid = some 10001 ∧
    ¬ IndexesInjective s.toStore (bagCursors s.toStore) := by
  obtain ⟨s, hreach, hitem, hbagged⟩ := exists_crowded (n := 5002) (by decide)
  obtain ⟨n, -, hlisted⟩ := listed_of_adds hreach
  have hlists := bagCursors_lists s.toStore
  have hfront : ∀ item ∈ List.range 5001, (crowd item).category = .weapon := by
    intro item hmem
    rw [crowd, Item.category, if_pos (List.mem_range.mp hmem)]
    rfl
  have hbehind : [5001].filter (fun item => (crowd item).category = .weapon) = [] := by decide
  have hweapons : s.bagged .weapon = List.range 5001 := by
    rw [hbagged, List.range_succ, List.filter_append, hbehind, List.append_nil]
    exact List.filter_eq_self.mpr fun item hmem => decide_eq_true (hfront item hmem)
  have harmor : s.bagged .armor = [5001] := by
    rw [hbagged, List.range_succ, List.filter_append, List.filter_eq_nil_iff.mpr]
    · rfl
    · intro item hmem
      rw [hfront item hmem]
      decide
  have hlast : (s.bagged .weapon)[5000]? = some 5000 := by
    rw [hweapons, List.getElem?_range (by decide)]
  have hfirst : (s.bagged .armor)[0]? = some 5001 := by
    rw [harmor]
    rfl
  have hlong : ¬ IndexesInjective s.toStore (bagCursors s.toStore) := by
    rw [indexesInjective_iff hlisted hlists]
    intro hspaced
    have hnonempty : s.bagged .armor ≠ [] := harmor ▸ List.cons_ne_nil _ _
    have hspan := hspaced.apart .weapon .armor (by decide) hnonempty
    rw [hweapons, List.length_range] at hspan
    exact absurd hspan (by decide)
  refine ⟨s, hreach, hlast, hfirst, ?_, ?_, hlong⟩
  · rw [bagIndex_found hlisted hlists hlast]
    rfl
  · rw [bagIndex_found hlisted hlists hfirst]
    rfl

end Example

end R1Emu.Zone
