import MemDbg.Debug.Breakpoints
import Mathlib.Data.List.Find

/-!
# Who owns a debug register

Hardware breakpoints and watchpoints share one table of four slots, in which both are
found by their address alone.  The ledger beside the machine remembers which slots and
which watchpoints the user has asked for.
-/

namespace MemDbg.Debug

open List Lib Function Machine

/-! ## What the tables hold -/

def Dbg.entry (g : Dbg) (i : Nat) : Option (Nat × BpKind) :=
  if (g.breakpoints i).active then some ((g.breakpoints i).address, (g.breakpoints i).kind)
  else none

def Dbg.slot (g : Dbg) (i : Nat) : Option (Nat × Nat × Nat) :=
  if (g.watchpoints i).installed then
    some ((g.watchpoints i).address, (g.watchpoints i).length, (g.watchpoints i).type)
  else none

variable {g : Dbg}

theorem Dbg.entry_eq_some {i a : Nat} {k : BpKind} (h : g.entry i = some (a, k)) :
    (g.breakpoints i).active = true ∧ (g.breakpoints i).address = a ∧
      (g.breakpoints i).kind = k := by
  unfold Dbg.entry at h
  split at h
  · rename_i hactive
    cases h
    exact ⟨hactive, rfl, rfl⟩
  · cases h

theorem Dbg.entry_of_active {i : Nat} (h : (g.breakpoints i).active = true) :
    g.entry i = some ((g.breakpoints i).address, (g.breakpoints i).kind) := if_pos h

theorem Dbg.slot_of_installed {i : Nat} (h : (g.watchpoints i).installed = true) :
    g.slot i = some ((g.watchpoints i).address, (g.watchpoints i).length,
      (g.watchpoints i).type) := if_pos h

theorem Dbg.slot_eq_some {i a l t : Nat} (h : g.slot i = some (a, l, t)) :
    (g.watchpoints i).installed = true ∧ (g.watchpoints i).address = a := by
  unfold Dbg.slot at h
  split at h
  · rename_i hinstalled
    cases h
    exact ⟨hinstalled, rfl⟩
  · cases h

@[simp]
theorem Machine.entry_setBp (m : Machine) (i : Nat) (bp : Breakpoint) :
    (m.setBp i bp).dbg.entry =
      update m.dbg.entry i (if bp.active then some (bp.address, bp.kind) else none) := by
  funext j
  rcases eq_or_ne j i with rfl | hne
  · simp [Dbg.entry, setBp]
  · simp [Dbg.entry, setBp, hne]

@[simp]
theorem Machine.entry_setWp (m : Machine) (i : Nat) (wp : Watchpoint) :
    (m.setWp i wp).dbg.entry = m.dbg.entry := rfl

@[simp]
theorem Machine.slot_setWp (m : Machine) (i : Nat) (wp : Watchpoint) :
    (m.setWp i wp).dbg.slot =
      update m.dbg.slot i
        (if wp.installed then some (wp.address, wp.length, wp.type) else none) := by
  funext j
  rcases eq_or_ne j i with rfl | hne
  · simp [Dbg.slot, setWp]
  · simp [Dbg.slot, setWp, hne]

@[simp]
theorem Machine.slot_setBp (m : Machine) (i : Nat) (bp : Breakpoint) :
    (m.setBp i bp).dbg.slot = m.dbg.slot := rfl

@[simp]
theorem entry_syncHardwareDbregs (allowPartial : Bool) (hw : HwOutcome) (m : Machine) :
    (syncHardwareDbregs allowPartial hw m).2.dbg.entry = m.dbg.entry := by
  obtain ⟨dbregs, valid, dr, heq⟩ := syncHardwareDbregs_eq allowPartial hw m
  rw [heq]
  rfl

@[simp]
theorem slot_syncHardwareDbregs (allowPartial : Bool) (hw : HwOutcome) (m : Machine) :
    (syncHardwareDbregs allowPartial hw m).2.dbg.slot = m.dbg.slot := by
  obtain ⟨dbregs, valid, dr, heq⟩ := syncHardwareDbregs_eq allowPartial hw m
  rw [heq]
  rfl

/-! ## Searching the tables -/

theorem Dbg.findBreakpointSlot_some {a i : Nat} (h : g.findBreakpointSlot a = some i) :
    i < maxBreakpoints ∧ g.entry i = some (a, (g.breakpoints i).kind) := by
  have hfound := find?_some h
  rw [Bool.and_eq_true, beq_iff_eq] at hfound
  refine ⟨mem_range.1 (mem_of_find?_eq_some h), ?_⟩
  rw [Dbg.entry_of_active hfound.1, hfound.2]

theorem Dbg.findBreakpointSlot_none {a i : Nat} {k : BpKind}
    (h : g.findBreakpointSlot a = none) (hi : i < maxBreakpoints) : g.entry i ≠ some (a, k) := by
  intro hentry
  obtain ⟨hactive, haddress, -⟩ := Dbg.entry_eq_some hentry
  have hnot := find?_eq_none.1 h i (mem_range.2 hi)
  rw [hactive, haddress] at hnot
  simp at hnot

theorem Dbg.allocBreakpointSlot_some {i : Nat} (h : g.allocBreakpointSlot = some i) :
    i < maxBreakpoints ∧ g.entry i = none := by
  have hfree := find?_some h
  rw [Bool.not_eq_true'] at hfree
  exact ⟨mem_range.1 (mem_of_find?_eq_some h), if_neg (by rw [hfree]; decide)⟩

theorem Dbg.findWatchpointSlot_eq (g : Dbg) (a : Nat) :
    g.findWatchpointSlot a = (List.range maxWatchpoints).find? fun i =>
      (g.slot i).any fun w => w.1 == a := by
  refine find?_congr fun i _ => ?_
  rw [Dbg.slot]
  split_ifs with hinstalled
  · rw [hinstalled, Bool.true_and]
    rfl
  · rw [Bool.not_eq_true] at hinstalled
    rw [hinstalled, Bool.false_and]
    rfl

theorem Dbg.findWatchpointSlot_update_none {g g' : Dbg} {a b slot l t : Nat}
    (hslot : g.slot slot = some (b, l, t)) (hne : b ≠ a) (h : g'.slot = update g.slot slot none) :
    g'.findWatchpointSlot a = g.findWatchpointSlot a := by
  rw [Dbg.findWatchpointSlot_eq, Dbg.findWatchpointSlot_eq, h]
  refine find?_congr fun i _ => ?_
  rcases eq_or_ne i slot with rfl | hi
  · rw [update_self, hslot]
    simp [hne]
  · rw [update_of_ne hi]

theorem Dbg.findWatchpointSlot_some {a i : Nat} (h : g.findWatchpointSlot a = some i) :
    i < maxWatchpoints ∧
      g.slot i = some (a, (g.watchpoints i).length, (g.watchpoints i).type) := by
  have hfound := find?_some h
  rw [Bool.and_eq_true, beq_iff_eq] at hfound
  refine ⟨mem_range.1 (mem_of_find?_eq_some h), ?_⟩
  rw [Dbg.slot_of_installed hfound.1, hfound.2]

theorem Dbg.findWatchpointSlot_none {a i l t : Nat}
    (h : g.findWatchpointSlot a = none) (hi : i < maxWatchpoints) : g.slot i ≠ some (a, l, t) := by
  intro hslot
  obtain ⟨hinstalled, haddress⟩ := Dbg.slot_eq_some hslot
  have hnot := find?_eq_none.1 h i (mem_range.2 hi)
  rw [hinstalled, haddress] at hnot
  simp at hnot

theorem Dbg.allocHwSlot_some {i : Nat} (h : g.allocHwSlot = some i) :
    i < maxWatchpoints ∧ g.slot i = none := by
  have hfree := find?_some h
  rw [Bool.not_eq_true'] at hfree
  exact ⟨mem_range.1 (mem_of_find?_eq_some h), if_neg (by rw [hfree]; decide)⟩

/-! ## The ledger -/

/-- What the tables hold, the slots that were installed for watchpoints of the user, and
the watchpoints the user has set and not cleared, by address. -/
structure Ledger where
  entry : Nat → Option (Nat × BpKind)
  slot : Nat → Option (Nat × Nat × Nat)
  user : Nat → Bool
  wanted : Nat → Option (Nat × Nat)

namespace Ledger

def Owns (s : Ledger) (i slot : Nat) : Prop :=
  ∃ a, s.entry i = some (a, .hardware) ∧ s.slot slot = some (a, 1, 0) ∧ s.user slot = false

/-- Breakpoints and watchpoints own disjoint slots. -/
structure Owned (s : Ledger) : Prop where
  owns : ∀ i a, s.entry i = some (a, .hardware) → ∃! slot, s.Owns i slot
  apart : ∀ i j slot, s.Owns i slot → s.Owns j slot → i = j
  released : ∀ slot w, s.slot slot = some w → s.user slot = false → ∃ i, s.Owns i slot
  kept : ∀ a l t, s.wanted a = some (l, t) →
    ∃ slot, s.slot slot = some (a, l, t) ∧ s.user slot = true

structure Inv (s : Ledger) : Prop where
  entries : ∀ i, (s.entry i).isSome → i < maxBreakpoints
  slots : ∀ i, (s.slot i).isSome → i < maxWatchpoints
  distinct : ∀ i j a k k', s.entry i = some (a, k) → s.entry j = some (a, k') → i = j
  has : ∀ i a, s.entry i = some (a, .hardware) → ∃ slot, s.Owns i slot
  only : ∀ i slot slot', s.Owns i slot → s.Owns i slot' → slot = slot'
  released : ∀ slot w, s.slot slot = some w → s.user slot = false → ∃ i, s.Owns i slot
  kept : ∀ a l t, s.wanted a = some (l, t) →
    ∃ slot, s.slot slot = some (a, l, t) ∧ s.user slot = true

theorem Inv.owned {s : Ledger} (h : s.Inv) : s.Owned where
  owns i a hi := by
    obtain ⟨slot, hslot⟩ := h.has i a hi
    exact ⟨slot, hslot, fun slot' hslot' => h.only i slot' slot hslot' hslot⟩
  apart i j slot hi hj := by
    obtain ⟨a, hentry, hslot, -⟩ := hi
    obtain ⟨b, hentry', hslot', -⟩ := hj
    rw [hslot] at hslot'
    cases hslot'
    exact h.distinct i j a _ _ hentry hentry'
  released := h.released
  kept := h.kept

/-! ## What a request can do to the ledger -/

def addSoftware (s : Ledger) (i a : Nat) : Ledger :=
  { s with entry := update s.entry i (some (a, .software)) }

def addHardware (s : Ledger) (i a slot : Nat) : Ledger :=
  { s with
    entry := update s.entry i (some (a, .hardware))
    slot := update s.slot slot (some (a, 1, 0))
    user := update s.user slot false }

def addWatchpoint (s : Ledger) (slot a l t : Nat) : Ledger :=
  { s with
    slot := update s.slot slot (some (a, l, t))
    user := update s.user slot true
    wanted := update s.wanted a (some (l, t)) }

def dropSoftware (s : Ledger) (i : Nat) : Ledger := { s with entry := update s.entry i none }

def dropHardware (s : Ledger) (i slot : Nat) : Ledger :=
  { s with entry := update s.entry i none, slot := update s.slot slot none }

def dropWatchpoint (s : Ledger) (slot a : Nat) : Ledger :=
  { s with slot := update s.slot slot none, wanted := update s.wanted a none }

def dropWatchpoints (s : Ledger) : Ledger :=
  { s with slot := fun _ => none, wanted := fun _ => none }

section

variable {s : Ledger} {i slot a l t : Nat}

theorem Inv.distinct_update (h : s.Inv) {k : BpKind} (hfresh : ∀ j k, s.entry j ≠ some (a, k))
    (j j' b : Nat) (k₁ k₂ : BpKind) (hj : update s.entry i (some (a, k)) j = some (b, k₁))
    (hj' : update s.entry i (some (a, k)) j' = some (b, k₂)) : j = j' := by
  rcases eq_or_ne j i with rfl | hne
  · rcases eq_or_ne j' j with rfl | hne'
    · rfl
    · rw [update_self] at hj
      rw [update_of_ne hne'] at hj'
      cases hj
      exact absurd hj' (hfresh j' k₂)
  · rw [update_of_ne hne] at hj
    rcases eq_or_ne j' i with rfl | hne'
    · rw [update_self] at hj'
      cases hj'
      exact absurd hj (hfresh j k₁)
    · rw [update_of_ne hne'] at hj'
      exact h.distinct j j' b k₁ k₂ hj hj'

theorem update_none_eq_some {β : Type} {f : Nat → Option β} {i j : Nat} {b : β} :
    update f i none j = some b ↔ j ≠ i ∧ f j = some b := by
  rcases eq_or_ne j i with rfl | hne
  · simp
  · simp [hne]

theorem isSome_update_lt {β : Type} {f : Nat → Option β} {n i : Nat}
    (h : ∀ j, (f j).isSome → j < n) (hi : i < n) (b : Option β) (j : Nat)
    (hj : (update f i b j).isSome) : j < n := by
  rcases eq_or_ne j i with rfl | hne
  · exact hi
  · rw [update_of_ne hne] at hj
    exact h j hj

theorem owns_addSoftware (hfree : s.entry i = none) (j sl : Nat) :
    (s.addSoftware i a).Owns j sl ↔ s.Owns j sl := by
  rcases eq_or_ne j i with rfl | hne
  · simp [Owns, addSoftware, hfree]
  · simp [Owns, addSoftware, hne]

theorem Inv.addSoftware (h : s.Inv) (hi : i < maxBreakpoints) (hfree : s.entry i = none)
    (hfresh : ∀ j k, s.entry j ≠ some (a, k)) : (s.addSoftware i a).Inv where
  entries := isSome_update_lt h.entries hi _
  slots := h.slots
  distinct := h.distinct_update hfresh
  has j b hj := by
    rcases eq_or_ne j i with rfl | hne
    · simp [Ledger.addSoftware] at hj
    · dsimp only [Ledger.addSoftware] at hj
      rw [update_of_ne hne] at hj
      obtain ⟨sl, hsl⟩ := h.has j b hj
      exact ⟨sl, (owns_addSoftware hfree j sl).2 hsl⟩
  only j sl sl' hsl hsl' := by
    rw [owns_addSoftware hfree] at hsl hsl'
    exact h.only j sl sl' hsl hsl'
  released sl w hsl huser := by
    obtain ⟨j, hj⟩ := h.released sl w hsl huser
    exact ⟨j, (owns_addSoftware hfree j sl).2 hj⟩
  kept := h.kept

theorem Inv.owns_addHardware (h : s.Inv) (hfree : s.entry i = none)
    (hfresh : ∀ j k, s.entry j ≠ some (a, k)) (hslot : s.slot slot = none) (j sl : Nat) :
    (s.addHardware i a slot).Owns j sl ↔ (j = i ∧ sl = slot) ∨ s.Owns j sl := by
  constructor
  · rintro ⟨b, hentry, hsl, huser⟩
    dsimp only [Ledger.addHardware] at hentry hsl huser
    rcases eq_or_ne j i with rfl | hne
    · rw [update_self] at hentry
      cases hentry
      rcases eq_or_ne sl slot with rfl | hne'
      · exact .inl ⟨rfl, rfl⟩
      · rw [update_of_ne hne'] at hsl huser
        obtain ⟨j', b, hentry', hsl', -⟩ := h.released sl _ hsl huser
        rw [hsl] at hsl'
        cases hsl'
        exact absurd hentry' (hfresh j' _)
    · rw [update_of_ne hne] at hentry
      rcases eq_or_ne sl slot with rfl | hne'
      · rw [update_self] at hsl
        cases hsl
        exact absurd hentry (hfresh j _)
      · rw [update_of_ne hne'] at hsl huser
        exact .inr ⟨b, hentry, hsl, huser⟩
  · rintro (⟨rfl, rfl⟩ | ⟨b, hentry, hsl, huser⟩)
    · exact ⟨a, update_self .., update_self .., update_self ..⟩
    · have hne : j ≠ i := by
        rintro rfl
        rw [hfree] at hentry
        cases hentry
      have hne' : sl ≠ slot := by
        rintro rfl
        rw [hslot] at hsl
        cases hsl
      exact ⟨b, (update_of_ne hne ..).trans hentry,
        (update_of_ne hne' ..).trans hsl,
        (update_of_ne hne' ..).trans huser⟩

theorem Inv.addHardware (h : s.Inv) (hi : i < maxBreakpoints) (hfree : s.entry i = none)
    (hfresh : ∀ j k, s.entry j ≠ some (a, k)) (hsl : slot < maxWatchpoints)
    (hslot : s.slot slot = none) : (s.addHardware i a slot).Inv where
  entries := isSome_update_lt h.entries hi _
  slots := isSome_update_lt h.slots hsl _
  distinct := h.distinct_update hfresh
  has j b hj := by
    rcases eq_or_ne j i with rfl | hne
    · exact ⟨slot, (h.owns_addHardware hfree hfresh hslot j slot).2 (.inl ⟨rfl, rfl⟩)⟩
    · dsimp only [Ledger.addHardware] at hj
      rw [update_of_ne hne] at hj
      obtain ⟨sl, howns⟩ := h.has j b hj
      exact ⟨sl, (h.owns_addHardware hfree hfresh hslot j sl).2 (.inr howns)⟩
  only j sl sl' howns howns' := by
    rw [h.owns_addHardware hfree hfresh hslot] at howns howns'
    have hnone : ∀ sl, ¬ s.Owns i sl := by
      rintro sl ⟨b, hentry, -⟩
      rw [hfree] at hentry
      cases hentry
    rcases howns with ⟨rfl, rfl⟩ | howns
    · rcases howns' with ⟨-, rfl⟩ | howns'
      · rfl
      · exact absurd howns' (hnone sl')
    · rcases howns' with ⟨rfl, rfl⟩ | howns'
      · exact absurd howns (hnone sl)
      · exact h.only j sl sl' howns howns'
  released sl w hw huser := by
    rcases eq_or_ne sl slot with rfl | hne
    · exact ⟨i, (h.owns_addHardware hfree hfresh hslot i sl).2 (.inl ⟨rfl, rfl⟩)⟩
    · dsimp only [Ledger.addHardware] at hw huser
      rw [update_of_ne hne] at hw huser
      obtain ⟨j, hj⟩ := h.released sl w hw huser
      exact ⟨j, (h.owns_addHardware hfree hfresh hslot j sl).2 (.inr hj)⟩
  kept b l t hb := by
    obtain ⟨sl, hw, huser⟩ := h.kept b l t hb
    have hne : sl ≠ slot := by
      rintro rfl
      rw [hslot] at hw
      cases hw
    exact ⟨sl, (update_of_ne hne ..).trans hw,
      (update_of_ne hne ..).trans huser⟩

theorem owns_addWatchpoint (hslot : s.slot slot = none) (j sl : Nat) :
    (s.addWatchpoint slot a l t).Owns j sl ↔ s.Owns j sl := by
  rcases eq_or_ne sl slot with rfl | hne
  · simp [Owns, addWatchpoint, hslot]
  · simp [Owns, addWatchpoint, hne]

theorem Inv.addWatchpoint (h : s.Inv) (hsl : slot < maxWatchpoints) (hslot : s.slot slot = none) :
    (s.addWatchpoint slot a l t).Inv where
  entries := h.entries
  slots := isSome_update_lt h.slots hsl _
  distinct := h.distinct
  has j b hj := by
    obtain ⟨sl, hsl⟩ := h.has j b hj
    exact ⟨sl, (owns_addWatchpoint hslot j sl).2 hsl⟩
  only j sl sl' howns howns' := by
    rw [owns_addWatchpoint hslot] at howns howns'
    exact h.only j sl sl' howns howns'
  released sl w hw huser := by
    rcases eq_or_ne sl slot with rfl | hne
    · simp [Ledger.addWatchpoint] at huser
    · dsimp only [Ledger.addWatchpoint] at hw huser
      rw [update_of_ne hne] at hw huser
      obtain ⟨j, hj⟩ := h.released sl w hw huser
      exact ⟨j, (owns_addWatchpoint hslot j sl).2 hj⟩
  kept b l' t' hb := by
    rcases eq_or_ne b a with rfl | hne
    · dsimp only [Ledger.addWatchpoint] at hb
      rw [update_self] at hb
      cases hb
      exact ⟨slot, update_self .., update_self ..⟩
    · dsimp only [Ledger.addWatchpoint] at hb
      rw [update_of_ne hne] at hb
      obtain ⟨sl, hw, huser⟩ := h.kept b l' t' hb
      have hne' : sl ≠ slot := by
        rintro rfl
        rw [hslot] at hw
        cases hw
      exact ⟨sl, (update_of_ne hne' ..).trans hw,
        (update_of_ne hne' ..).trans huser⟩

theorem owns_dropSoftware (hentry : s.entry i = some (a, .software)) (j sl : Nat) :
    (s.dropSoftware i).Owns j sl ↔ s.Owns j sl := by
  rcases eq_or_ne j i with rfl | hne
  · simp [Owns, dropSoftware, hentry]
  · simp [Owns, dropSoftware, hne]

theorem Inv.dropSoftware (h : s.Inv) (hentry : s.entry i = some (a, .software)) :
    (s.dropSoftware i).Inv where
  entries j hj := by
    rcases eq_or_ne j i with rfl | hne
    · simp [Ledger.dropSoftware] at hj
    · dsimp only [Ledger.dropSoftware] at hj
      rw [update_of_ne hne] at hj
      exact h.entries j hj
  slots := h.slots
  distinct j j' b k k' hj hj' :=
    h.distinct j j' b k k' (update_none_eq_some.1 hj).2 (update_none_eq_some.1 hj').2
  has j b hj := by
    obtain ⟨sl, hsl⟩ := h.has j b (update_none_eq_some.1 hj).2
    exact ⟨sl, (owns_dropSoftware hentry j sl).2 hsl⟩
  only j sl sl' howns howns' := by
    rw [owns_dropSoftware hentry] at howns howns'
    exact h.only j sl sl' howns howns'
  released sl w hw huser := by
    obtain ⟨j, hj⟩ := h.released sl w hw huser
    exact ⟨j, (owns_dropSoftware hentry j sl).2 hj⟩
  kept := h.kept

theorem Inv.owns_dropHardware (h : s.Inv) (howns : s.Owns i slot) (j sl : Nat) :
    (s.dropHardware i slot).Owns j sl ↔ j ≠ i ∧ s.Owns j sl := by
  constructor
  · rintro ⟨b, hentry, hsl, huser⟩
    obtain ⟨hne, hentry⟩ := update_none_eq_some.1 hentry
    exact ⟨hne, b, hentry, (update_none_eq_some.1 hsl).2, huser⟩
  · rintro ⟨hne, b, hentry, hsl, huser⟩
    refine ⟨b, update_none_eq_some.2 ⟨hne, hentry⟩, update_none_eq_some.2 ⟨?_, hsl⟩, huser⟩
    rintro rfl
    exact hne (h.owned.apart j i sl ⟨b, hentry, hsl, huser⟩ howns)

theorem Inv.dropHardware (h : s.Inv) (howns : s.Owns i slot) : (s.dropHardware i slot).Inv where
  entries j hj := by
    obtain ⟨w, hw⟩ := Option.isSome_iff_exists.1 hj
    exact h.entries j (by rw [(update_none_eq_some.1 hw).2]; rfl)
  slots j hj := by
    obtain ⟨w, hw⟩ := Option.isSome_iff_exists.1 hj
    exact h.slots j (by rw [(update_none_eq_some.1 hw).2]; rfl)
  distinct j j' b k k' hj hj' :=
    h.distinct j j' b k k' (update_none_eq_some.1 hj).2 (update_none_eq_some.1 hj').2
  has j b hj := by
    obtain ⟨hne, hentry⟩ := update_none_eq_some.1 hj
    obtain ⟨sl, hsl⟩ := h.has j b hentry
    exact ⟨sl, (h.owns_dropHardware howns j sl).2 ⟨hne, hsl⟩⟩
  only j sl sl' hsl hsl' :=
    h.only j sl sl' ((h.owns_dropHardware howns j sl).1 hsl).2
      ((h.owns_dropHardware howns j sl').1 hsl').2
  released sl w hw huser := by
    obtain ⟨hne, hsl⟩ := update_none_eq_some.1 hw
    obtain ⟨j, hj⟩ := h.released sl w hsl huser
    refine ⟨j, (h.owns_dropHardware howns j sl).2 ⟨?_, hj⟩⟩
    rintro rfl
    exact hne (h.only j sl slot hj howns)
  kept b l t hb := by
    obtain ⟨sl, hw, huser⟩ := h.kept b l t hb
    refine ⟨sl, update_none_eq_some.2 ⟨?_, hw⟩, huser⟩
    rintro rfl
    obtain ⟨c, -, -, hbreak⟩ := howns
    rw [hbreak] at huser
    cases huser

theorem owns_dropWatchpoint (huser : s.user slot = true) (j sl : Nat) :
    (s.dropWatchpoint slot a).Owns j sl ↔ s.Owns j sl := by
  rcases eq_or_ne sl slot with rfl | hne
  · simp [Owns, dropWatchpoint, huser]
  · simp [Owns, dropWatchpoint, hne]

theorem Inv.dropWatchpoint (h : s.Inv) (hslot : s.slot slot = some (a, l, t))
    (huser : s.user slot = true) : (s.dropWatchpoint slot a).Inv where
  entries := h.entries
  slots j hj := by
    obtain ⟨w, hw⟩ := Option.isSome_iff_exists.1 hj
    exact h.slots j (by rw [(update_none_eq_some.1 hw).2]; rfl)
  distinct := h.distinct
  has j b hj := by
    obtain ⟨sl, hsl⟩ := h.has j b hj
    exact ⟨sl, (owns_dropWatchpoint huser j sl).2 hsl⟩
  only j sl sl' hsl hsl' := by
    rw [owns_dropWatchpoint huser] at hsl hsl'
    exact h.only j sl sl' hsl hsl'
  released sl w hw hsl := by
    obtain ⟨j, hj⟩ := h.released sl w (update_none_eq_some.1 hw).2 hsl
    exact ⟨j, (owns_dropWatchpoint huser j sl).2 hj⟩
  kept b l' t' hb := by
    obtain ⟨hne, hb⟩ := update_none_eq_some.1 hb
    obtain ⟨sl, hw, hsl⟩ := h.kept b l' t' hb
    refine ⟨sl, update_none_eq_some.2 ⟨?_, hw⟩, hsl⟩
    rintro rfl
    rw [hslot] at hw
    cases hw
    exact hne rfl

theorem Inv.dropWatchpoints (h : s.Inv) (hnone : ∀ i a, s.entry i ≠ some (a, .hardware)) :
    s.dropWatchpoints.Inv where
  entries := h.entries
  slots j hj := by cases hj
  distinct := h.distinct
  has j b hj := absurd hj (hnone j b)
  only j sl sl' hsl _ := by
    obtain ⟨b, hentry, -⟩ := hsl
    exact absurd hentry (hnone j b)
  released sl w hw _ := by cases hw
  kept b l t hb := by cases hb

end

end Ledger

/-! ## What the requests do -/

section

variable {m : Machine} {a : Nat}

@[simp]
theorem entry_installSwBreakpoint (read write : Status) (i : Nat) (m : Machine) :
    (installSwBreakpoint read write i m).2.dbg.entry = m.dbg.entry := by
  have hsame (b : UInt8) (ins : Bool) :
      (m.setBp i { m.dbg.breakpoints i with originalByte := b, installed := ins }).dbg.entry =
        m.dbg.entry := by
    rw [entry_setBp]
    exact update_eq_self i m.dbg.entry
  rw [installSwBreakpoint]
  split_ifs with hinstalled
  · rfl
  · rfl
  · exact hsame _ _
  · change ((m.setBp i _).setBp i _).dbg.entry = _
    rw [entry_setBp, hsame]
    exact update_eq_self i m.dbg.entry

@[simp]
theorem slot_installSwBreakpoint (read write : Status) (i : Nat) (m : Machine) :
    (installSwBreakpoint read write i m).2.dbg.slot = m.dbg.slot := by
  rw [installSwBreakpoint]
  split_ifs
  all_goals rfl

@[simp]
theorem entry_uninstallSwBreakpoint (write : Status) (i : Nat) (m : Machine) :
    (uninstallSwBreakpoint write i m).2.dbg.entry = m.dbg.entry := by
  rw [uninstallSwBreakpoint]
  split_ifs
  · rfl
  · rfl
  · change (m.setBp i _).dbg.entry = _
    rw [entry_setBp]
    exact update_eq_self i m.dbg.entry

@[simp]
theorem slot_uninstallSwBreakpoint (write : Status) (i : Nat) (m : Machine) :
    (uninstallSwBreakpoint write i m).2.dbg.slot = m.dbg.slot := by
  rw [uninstallSwBreakpoint]
  split_ifs
  all_goals rfl

@[simp]
theorem entry_setHardwareBreakpoint (address : Nat) (hw : HwOutcome) (m : Machine) :
    (setHardwareBreakpoint address hw m).2.dbg.entry = m.dbg.entry := by
  rw [setHardwareBreakpoint]
  split
  · rfl
  · rename_i slot _
    have hentry := entry_syncHardwareDbregs true hw (m.setWp slot (fakeWatchpoint address slot))
    split
    · rename_i m' hm'
      rwa [hm'] at hentry
    · rename_i st m' _ hm'
      rwa [hm'] at hentry

theorem slot_setHardwareBreakpoint (address : Nat) (hw : HwOutcome) (m : Machine) :
    ((setHardwareBreakpoint address hw m).1 ≠ .ok ∧
        (setHardwareBreakpoint address hw m).2.dbg.slot = m.dbg.slot) ∨
      ∃ slot, slot < maxWatchpoints ∧ m.dbg.slot slot = none ∧
        (setHardwareBreakpoint address hw m).1 = .ok ∧
        (setHardwareBreakpoint address hw m).2.dbg.slot =
          update m.dbg.slot slot (some (address, 1, 0)) := by
  rw [setHardwareBreakpoint]
  split
  · exact .inl ⟨fun h => (nomatch h), rfl⟩
  · rename_i slot halloc
    obtain ⟨hlt, hfree⟩ := Dbg.allocHwSlot_some halloc
    have hslot := slot_syncHardwareDbregs true hw (m.setWp slot (fakeWatchpoint address slot))
    rw [slot_setWp, if_pos (show (fakeWatchpoint address slot).installed = true from rfl)]
      at hslot
    split
    · rename_i m' hm'
      rw [hm'] at hslot
      exact .inr ⟨slot, hlt, hfree, rfl, hslot⟩
    · rename_i st m' hst hm'
      rw [hm'] at hslot
      refine .inl ⟨fun h => hst h, ?_⟩
      rw [slot_setWp, hslot, update_idem, ← hfree]
      exact update_eq_self slot m.dbg.slot

theorem setBreakpointCond_tables (address kind condReg condOp : Nat) (condValue : Int)
    (o : SetOutcome) (m m' : Machine) (st : Status)
    (h : setBreakpointCond address kind condReg condOp condValue o m = (st, m')) :
    (m'.dbg.entry = m.dbg.entry ∧ m'.dbg.slot = m.dbg.slot) ∨
      m.dbg.findBreakpointSlot address = none ∧ ∃ i, i < maxBreakpoints ∧ m.dbg.entry i = none ∧
        ((m'.dbg.entry = update m.dbg.entry i (some (address, .software)) ∧
            m'.dbg.slot = m.dbg.slot) ∨
          m'.dbg.entry = update m.dbg.entry i (some (address, .hardware)) ∧
            ∃ slot, slot < maxWatchpoints ∧ m.dbg.slot slot = none ∧
              m'.dbg.slot = update m.dbg.slot slot (some (address, 1, 0))) := by
  have hsame : ∀ {x : Status}, (x, m) = (st, m') →
      m'.dbg.entry = m.dbg.entry ∧ m'.dbg.slot = m.dbg.slot := by
    rintro x ⟨⟩
    exact ⟨rfl, rfl⟩
  rw [setBreakpointCond] at h
  split_ifs at h with hattached hreg hop hfind
  · exact .inl (hsame h)
  · exact .inl (hsame h)
  · exact .inl (hsame h)
  · exact .inl (hsame h)
  · rw [Option.not_isSome_iff_eq_none] at hfind
    split at h
    · exact .inl (hsame h)
    · rename_i i halloc
      obtain ⟨hlt, hfree⟩ := Dbg.allocBreakpointSlot_some halloc
      have hback : update m.dbg.entry i none = m.dbg.entry := by
        rw [← hfree]
        exact update_eq_self i m.dbg.entry
      cases hkind : bpKindOf kind with
      | none =>
        rw [hkind] at h
        cases h
        left
        rw [if_neg (fun h => (nomatch h)), entry_setBp, slot_setBp]
        exact ⟨hback, rfl⟩
      | some k =>
        rw [hkind] at h
        cases k with
        | software =>
          dsimp only at h
          cases h
          split_ifs
          · refine .inr ⟨hfind, i, hlt, hfree, .inl ?_⟩
            rw [entry_installSwBreakpoint, slot_installSwBreakpoint, entry_setBp]
            exact ⟨rfl, rfl⟩
          · left
            rw [entry_setBp, entry_installSwBreakpoint, entry_setBp,
              slot_setBp, slot_installSwBreakpoint, update_idem]
            exact ⟨hback, rfl⟩
        | hardware =>
          dsimp only at h
          cases h
          rcases slot_setHardwareBreakpoint address o.hw (m.setBp i
            ⟨address, .hardware, 0, false, true, condReg, condOp, condValue⟩) with
            ⟨hst, hslot⟩ | ⟨slot, hltslot, hfreeslot, hst, hslot⟩
          · left
            rw [if_neg hst, entry_setBp, entry_setHardwareBreakpoint,
              entry_setBp, slot_setBp, hslot, update_idem]
            exact ⟨hback, rfl⟩
          · refine .inr ⟨hfind, i, hlt, hfree, .inr ?_⟩
            rw [if_pos hst, entry_setHardwareBreakpoint, entry_setBp, hslot]
            exact ⟨rfl, slot, hltslot, hfreeslot, rfl⟩

@[simp]
theorem entry_clearHardwareSlot (slot : Nat) (hw : HwOutcome) (m : Machine) :
    (clearHardwareSlot slot hw m).2.dbg.entry = m.dbg.entry := by
  have hentry := entry_syncHardwareDbregs false hw (m.setWp slot Watchpoint.zero)
  rw [clearHardwareSlot]
  split
  · rename_i m' hm'
    rwa [hm'] at hentry
  · rename_i st m' _ hm'
    rwa [hm'] at hentry

theorem slot_clearHardwareSlot (slot : Nat) (hw : HwOutcome) (m : Machine) :
    (clearHardwareSlot slot hw m).2.dbg.slot =
      if (clearHardwareSlot slot hw m).1 = .ok then update m.dbg.slot slot none
      else m.dbg.slot := by
  have hslot := slot_syncHardwareDbregs false hw (m.setWp slot Watchpoint.zero)
  rw [slot_setWp, if_neg (show ¬ Watchpoint.zero.installed = true from nofun)] at hslot
  rw [clearHardwareSlot]
  split
  · rename_i m' hm'
    rw [hm'] at hslot
    exact hslot
  · rename_i st m' hst hm'
    rw [hm'] at hslot
    rw [if_neg (fun h => hst h), slot_setWp, hslot, update_idem]
    exact update_eq_self slot m.dbg.slot

theorem clearBreakpoint_tables (address : Nat) (write : Status) (hw : HwOutcome) (m m' : Machine)
    (st : Status) (h : clearBreakpoint address write hw m = (st, m')) :
    (m'.dbg.entry = m.dbg.entry ∧ m'.dbg.slot = m.dbg.slot) ∨
      ∃ i, m.dbg.findBreakpointSlot address = some i ∧ m'.dbg.entry = update m.dbg.entry i none ∧
        (((m.dbg.breakpoints i).kind = .software ∧ m'.dbg.slot = m.dbg.slot) ∨
          (m.dbg.breakpoints i).kind = .hardware ∧
            ((m.dbg.findWatchpointSlot address = none ∧ m'.dbg.slot = m.dbg.slot) ∨
              ∃ slot, m.dbg.findWatchpointSlot address = some slot ∧
                m'.dbg.slot = update m.dbg.slot slot none)) := by
  rw [clearBreakpoint] at h
  split_ifs at h
  · cases h
    exact .inl ⟨rfl, rfl⟩
  · split at h
    · cases h
      exact .inl ⟨rfl, rfl⟩
    · rename_i i hfind
      dsimp only at h
      cases hkind : (m.dbg.breakpoints i).kind with
      | software =>
        rw [hkind] at h
        cases h
        split_ifs
        · refine .inr ⟨i, hfind, ?_, .inl ⟨hkind, ?_⟩⟩
          · rw [entry_setBp, entry_uninstallSwBreakpoint]
            rfl
          · rw [slot_setBp, slot_uninstallSwBreakpoint]
        · left
          rw [entry_uninstallSwBreakpoint, slot_uninstallSwBreakpoint]
          exact ⟨rfl, rfl⟩
      | hardware =>
        rw [hkind] at h
        cases hfind' : m.dbg.findWatchpointSlot address with
        | none =>
          rw [hfind'] at h
          cases h
          refine .inr ⟨i, hfind, ?_, .inr ⟨hkind, .inl ⟨rfl, rfl⟩⟩⟩
          exact entry_setBp m i Breakpoint.zero
        | some slot =>
          rw [hfind'] at h
          cases h
          have hslot := slot_clearHardwareSlot slot hw m
          split_ifs at hslot ⊢
          · refine .inr ⟨i, hfind, ?_, .inr ⟨hkind, .inr ⟨slot, rfl, ?_⟩⟩⟩
            · rw [entry_setBp, entry_clearHardwareSlot]
              rfl
            · rw [slot_setBp, hslot]
          · left
            rw [entry_clearHardwareSlot, hslot]
            exact ⟨rfl, rfl⟩

theorem setWatchpoint_tables (address length type : Nat) (hw : HwOutcome) (m m' : Machine)
    (st : Status) (h : setWatchpoint address length type hw m = (st, m')) :
    m'.dbg.entry = m.dbg.entry ∧
      ((st ≠ .ok ∧ m'.dbg.slot = m.dbg.slot) ∨
        st = .ok ∧ ∃ slot, slot < maxWatchpoints ∧ m.dbg.slot slot = none ∧
          m'.dbg.slot = update m.dbg.slot slot (some (address, length, type))) := by
  rw [setWatchpoint] at h
  split_ifs at h
  · cases h
    exact ⟨rfl, .inl ⟨nofun, rfl⟩⟩
  · cases h
    exact ⟨rfl, .inl ⟨nofun, rfl⟩⟩
  · cases h
    exact ⟨rfl, .inl ⟨nofun, rfl⟩⟩
  · cases h
    exact ⟨rfl, .inl ⟨nofun, rfl⟩⟩
  · split at h
    · cases h
      exact ⟨rfl, .inl ⟨nofun, rfl⟩⟩
    · rename_i slot halloc
      obtain ⟨hlt, hfree⟩ := Dbg.allocHwSlot_some halloc
      have hentry := entry_syncHardwareDbregs true hw
        (m.setWp slot ⟨address, length, type, slot, true⟩)
      have hslot := slot_syncHardwareDbregs true hw
        (m.setWp slot ⟨address, length, type, slot, true⟩)
      rw [slot_setWp, if_pos rfl] at hslot
      split at h
      · rename_i m₁ hm₁
        cases h
        rw [hm₁] at hentry hslot
        exact ⟨hentry, .inr ⟨rfl, slot, hlt, hfree, hslot⟩⟩
      · rename_i st₁ m₁ hst hm₁
        cases h
        rw [hm₁] at hentry hslot
        refine ⟨hentry, .inl ⟨fun h => hst h, ?_⟩⟩
        rw [slot_setWp, hslot, update_idem, ← hfree]
        exact update_eq_self slot m.dbg.slot

theorem clearWatchpoint_tables (address : Nat) (hw : HwOutcome) (m m' : Machine) (st : Status)
    (h : clearWatchpoint address hw m = (st, m')) :
    m'.dbg.entry = m.dbg.entry ∧
      ((st ≠ .ok ∧ m'.dbg.slot = m.dbg.slot) ∨
        st = .ok ∧ ∃ slot, m.dbg.findWatchpointSlot address = some slot ∧
          m'.dbg.slot = update m.dbg.slot slot none) := by
  rw [clearWatchpoint] at h
  split_ifs at h
  · cases h
    exact ⟨rfl, .inl ⟨nofun, rfl⟩⟩
  · split at h
    · cases h
      exact ⟨rfl, .inl ⟨nofun, rfl⟩⟩
    · rename_i slot hfind
      have hentry := entry_clearHardwareSlot slot hw m
      have hslot := slot_clearHardwareSlot slot hw m
      rw [h] at hentry hslot
      split_ifs at hslot with hst
      · exact ⟨hentry, .inr ⟨hst, slot, hfind, hslot⟩⟩
      · exact ⟨hentry, .inl ⟨hst, hslot⟩⟩

theorem clearAllWatchpoints_tables (hw : HwOutcome) (m m' : Machine) (st : Status)
    (hslots : ∀ i, (m.dbg.slot i).isSome → i < maxWatchpoints)
    (h : clearAllWatchpoints hw m = (st, m')) :
    m'.dbg.entry = m.dbg.entry ∧
      ((st ≠ .ok ∧ m'.dbg.slot = m.dbg.slot) ∨ st = .ok ∧ m'.dbg.slot = fun _ => none) := by
  rw [clearAllWatchpoints] at h
  split_ifs at h with hattached hany
  · cases h
    exact ⟨rfl, .inl ⟨nofun, rfl⟩⟩
  · have hentry := entry_syncHardwareDbregs false hw
      { m with dbg := { m.dbg with watchpoints := fun _ => Watchpoint.zero } }
    have hslot := slot_syncHardwareDbregs false hw
      { m with dbg := { m.dbg with watchpoints := fun _ => Watchpoint.zero } }
    split at h
    · rename_i m₁ hm₁
      cases h
      rw [hm₁] at hentry hslot
      exact ⟨hentry, .inr ⟨rfl, hslot⟩⟩
    · rename_i st₁ m₁ hst hm₁
      cases h
      rw [hm₁] at hentry
      exact ⟨hentry, .inl ⟨fun h => hst h, rfl⟩⟩
  · cases h
    refine ⟨rfl, .inr ⟨rfl, ?_⟩⟩
    rw [any_eq_true, not_exists] at hany
    funext i
    by_contra hsome
    rw [← ne_eq, Option.ne_none_iff_isSome] at hsome
    refine hany i ⟨mem_range.2 (hslots i hsome), ?_⟩
    by_contra hinstalled
    rw [Dbg.slot, if_neg hinstalled] at hsome
    cases hsome

end

/-! ## Sequences of requests -/

inductive Event where
  | target (t : Target)
  | setBreakpoint (address kind condReg condOp : Nat) (condValue : Int) (o : SetOutcome)
  | clearBreakpoint (address : Nat) (write : Status) (hw : HwOutcome)
  | clearAllBreakpoints (write : Nat → Status) (hw : HwOutcome)
  | setWatchpoint (address length type : Nat) (hw : HwOutcome)
  | clearWatchpoint (address : Nat) (hw : HwOutcome)
  | clearAllWatchpoints (hw : HwOutcome)

namespace Event

def apply (m : Machine) : Event → Status × Machine
  | target t => (.ok, { m with target := t })
  | setBreakpoint address kind condReg condOp condValue o =>
    setBreakpointCond address kind condReg condOp condValue o m
  | clearBreakpoint address write hw => Debug.clearBreakpoint address write hw m
  | clearAllBreakpoints write hw => Debug.clearAllBreakpoints write hw m
  | setWatchpoint address length type hw => Debug.setWatchpoint address length type hw m
  | clearWatchpoint address hw => Debug.clearWatchpoint address hw m
  | clearAllWatchpoints hw => Debug.clearAllWatchpoints hw m

def watches : Event → Bool
  | setWatchpoint .. => true
  | _ => false

def want (wanted : Nat → Option (Nat × Nat)) : Event → Nat → Option (Nat × Nat)
  | setWatchpoint address length type _ => update wanted address (some (length, type))
  | clearWatchpoint address _ => update wanted address none
  | clearAllWatchpoints _ => fun _ => none
  | _ => wanted

end Event

structure Audit where
  machine : Machine
  user : Nat → Bool
  wanted : Nat → Option (Nat × Nat)

namespace Audit

def ledger (s : Audit) : Ledger := ⟨s.machine.dbg.entry, s.machine.dbg.slot, s.user, s.wanted⟩

def attach (t : Target) : Audit := ⟨⟨Dbg.attach, t⟩, fun _ => false, fun _ => none⟩

def step (s : Audit) (e : Event) : Audit where
  machine := (e.apply s.machine).2
  user i := if (s.machine.dbg.slot i).isNone && ((e.apply s.machine).2.dbg.slot i).isSome then
    e.watches else s.user i
  wanted := if (e.apply s.machine).1 = .ok then e.want s.wanted else s.wanted

def FindsOwn (m : Machine) (user : Nat → Bool) (i : Nat) : Prop :=
  ∀ a, m.dbg.entry i = some (a, .hardware) →
    ∀ slot, m.dbg.findWatchpointSlot a = some slot → user slot = false

/-- A request that clears only finds what it was meant to clear. -/
def Apt (s : Audit) : Event → Prop
  | .clearBreakpoint address _ _ =>
    ∀ i, s.machine.dbg.findBreakpointSlot address = some i → FindsOwn s.machine s.user i
  | .clearAllBreakpoints _ _ => ∀ i, FindsOwn s.machine s.user i
  | .clearWatchpoint address _ =>
    ∀ slot, s.machine.dbg.findWatchpointSlot address = some slot → s.user slot = true
  | .clearAllWatchpoints _ => ∀ i a, s.machine.dbg.entry i ≠ some (a, .hardware)
  | _ => True

section

variable {s : Audit} {e : Event} {st : Status} {m' : Machine} {slot a : Nat} {w : Nat × Nat × Nat}
  {wanted : Nat → Option (Nat × Nat)}

theorem ledger_step_of_le (h : e.apply s.machine = (st, m'))
    (hle : ∀ i, (m'.dbg.slot i).isSome → (s.machine.dbg.slot i).isSome)
    (hwanted : (if st = .ok then e.want s.wanted else s.wanted) = wanted) :
    (s.step e).ledger = ⟨m'.dbg.entry, m'.dbg.slot, s.user, wanted⟩ := by
  have huser : (s.step e).user = s.user := by
    funext i
    rw [step, h]
    refine if_neg fun hnew => ?_
    rw [Bool.and_eq_true, Option.isNone_iff_eq_none] at hnew
    have hold := hle i hnew.2
    rw [hnew.1] at hold
    cases hold
  rw [ledger, huser, ← hwanted, step, h]

theorem ledger_step_of_update (h : e.apply s.machine = (st, m'))
    (hfree : s.machine.dbg.slot slot = none)
    (hslot : m'.dbg.slot = update s.machine.dbg.slot slot (some w))
    (hwanted : (if st = .ok then e.want s.wanted else s.wanted) = wanted) :
    (s.step e).ledger = ⟨m'.dbg.entry, m'.dbg.slot, update s.user slot e.watches, wanted⟩ := by
  have huser : (s.step e).user = update s.user slot e.watches := by
    funext i
    rw [step, h]
    dsimp only
    rw [hslot]
    rcases eq_or_ne i slot with rfl | hne
    · rw [update_self, update_self, hfree]
      rfl
    · rw [update_of_ne hne, update_of_ne hne]
      refine if_neg fun hnew => ?_
      rw [Bool.and_eq_true, Option.isNone_iff_eq_none] at hnew
      rw [hnew.1] at hnew
      cases hnew.2
  rw [ledger, huser, ← hwanted, step, h]

theorem ledger_step_of_eq (h : e.apply s.machine = (st, m'))
    (hentry : m'.dbg.entry = s.machine.dbg.entry) (hslot : m'.dbg.slot = s.machine.dbg.slot)
    (hwanted : (if st = .ok then e.want s.wanted else s.wanted) = s.wanted) :
    (s.step e).ledger = s.ledger := by
  rw [ledger_step_of_le h (fun i hi => by rwa [hslot] at hi) hwanted, hentry, hslot]
  rfl

theorem isSome_of_update_none {f : Nat → Option (Nat × Nat × Nat)} {i : Nat}
    (h : (update f slot none i).isSome) : (f i).isSome := by
  obtain ⟨w, hw⟩ := Option.isSome_iff_exists.1 h
  rw [(Ledger.update_none_eq_some.1 hw).2]
  rfl

theorem owns_of_findsOwn {m : Machine} {user : Nat → Bool} {wanted : Nat → Option (Nat × Nat)}
    (h : Ledger.Inv ⟨m.dbg.entry, m.dbg.slot, user, wanted⟩) {i : Nat}
    (hentry : m.dbg.entry i = some (a, .hardware)) (hown : FindsOwn m user i) :
    ∃ slot, m.dbg.findWatchpointSlot a = some slot ∧
      Ledger.Owns ⟨m.dbg.entry, m.dbg.slot, user, wanted⟩ i slot := by
  cases hfind : m.dbg.findWatchpointSlot a with
  | none =>
    obtain ⟨slot, b, hentry', hslot, -⟩ := h.has i a hentry
    dsimp only at hentry' hslot
    rw [hentry] at hentry'
    cases hentry'
    refine absurd hslot (Dbg.findWatchpointSlot_none hfind (h.slots slot ?_))
    dsimp only
    rw [hslot]
    rfl
  | some slot =>
    have hslot := (Dbg.findWatchpointSlot_some hfind).2
    have huser := hown a hentry slot hfind
    obtain ⟨j, b, hentry', hslot', hbreak⟩ := h.released slot _ hslot huser
    have haddress : a = b := congrArg Prod.fst (Option.some.inj (hslot.symm.trans hslot'))
    subst haddress
    cases h.distinct i j a _ _ hentry hentry'
    exact ⟨slot, rfl, a, hentry, hslot', hbreak⟩

end

/-! ## Clearing all breakpoints -/

@[simp]
theorem entry_clearEntry (write : Nat → Status) (m : Machine) (i : Nat) :
    (clearEntry write m i).dbg.entry = update m.dbg.entry i none := by
  rw [clearEntry]
  split_ifs with hactive
  · have hnone : m.dbg.entry i = none := if_neg (by simpa using hactive)
    rw [← hnone]
    exact (update_eq_self i m.dbg.entry).symm
  · rw [entry_setBp, if_neg (show ¬ Breakpoint.zero.active = true from nofun)]
    split
    · rw [entry_uninstallSwBreakpoint]
    · split
      · rw [entry_setWp]
      · rfl

theorem slot_clearEntry (write : Nat → Status) (m : Machine) (i : Nat) :
    (clearEntry write m i).dbg.slot = m.dbg.slot ∧ (∀ a, m.dbg.entry i = some (a, .hardware) →
        m.dbg.findWatchpointSlot a = none) ∨
      ∃ a slot, m.dbg.entry i = some (a, .hardware) ∧ m.dbg.findWatchpointSlot a = some slot ∧
        (clearEntry write m i).dbg.slot = update m.dbg.slot slot none := by
  rw [clearEntry]
  split_ifs with hactive
  · refine .inl ⟨rfl, fun a hentry => ?_⟩
    have hnone : m.dbg.entry i = none := if_neg (by simpa using hactive)
    rw [hnone] at hentry
    cases hentry
  · have hentry :=
      Dbg.entry_of_active (show (m.dbg.breakpoints i).active = true by simpa using hactive)
    rw [slot_setBp]
    cases hkind : (m.dbg.breakpoints i).kind with
    | software =>
      refine .inl ⟨slot_uninstallSwBreakpoint .., fun a hentry' => ?_⟩
      rw [hentry, hkind] at hentry'
      cases hentry'
    | hardware =>
      rw [hkind] at hentry
      cases hfind : m.dbg.findWatchpointSlot (m.dbg.breakpoints i).address with
      | none =>
        refine .inl ⟨rfl, fun a hentry' => ?_⟩
        rw [hentry] at hentry'
        cases hentry'
        exact hfind
      | some slot =>
        refine .inr ⟨_, slot, hentry, hfind, ?_⟩
        exact slot_setWp m slot Watchpoint.zero

variable {user : Nat → Bool} {wanted : Nat → Option (Nat × Nat)}

theorem clearEntry_inv {m : Machine} (h : Ledger.Inv ⟨m.dbg.entry, m.dbg.slot, user, wanted⟩)
    (hown : ∀ i, FindsOwn m user i) (write : Nat → Status) (i : Nat) :
    Ledger.Inv ⟨(clearEntry write m i).dbg.entry, (clearEntry write m i).dbg.slot, user, wanted⟩ ∧
      (∀ j, FindsOwn (clearEntry write m i) user j) ∧
      ∀ sl, ((clearEntry write m i).dbg.slot sl).isSome → (m.dbg.slot sl).isSome := by
  rcases slot_clearEntry write m i with ⟨hslot, hnone⟩ | ⟨a, slot, hentry, hfind, hslot⟩
  · refine ⟨?_, fun j b hj slot hfind => ?_, fun sl hsl => by rwa [hslot] at hsl⟩
    · rw [entry_clearEntry, hslot]
      rcases hentry : m.dbg.entry i with _ | ⟨a, _ | _⟩
      · rw [← hentry, update_eq_self]
        exact h
      · exact h.dropSoftware hentry
      · obtain ⟨slot, hfind, -⟩ := owns_of_findsOwn h hentry (hown i)
        rw [hnone a hentry] at hfind
        cases hfind
    · rw [entry_clearEntry] at hj
      rw [Dbg.findWatchpointSlot_eq, hslot, ← Dbg.findWatchpointSlot_eq] at hfind
      exact hown j b (Ledger.update_none_eq_some.1 hj).2 slot hfind
  · obtain ⟨slot', hfind', howns⟩ := owns_of_findsOwn h hentry (hown i)
    rw [hfind] at hfind'
    cases hfind'
    refine ⟨?_, fun j b hj slot' hfind' => ?_, fun sl hsl => ?_⟩
    · rw [entry_clearEntry, hslot]
      exact h.dropHardware howns
    · rw [entry_clearEntry] at hj
      obtain ⟨hne, hentry'⟩ := Ledger.update_none_eq_some.1 hj
      have haddress : a ≠ b := by
        rintro rfl
        exact hne (h.distinct j i a _ _ hentry' hentry)
      rw [Dbg.findWatchpointSlot_update_none (Dbg.findWatchpointSlot_some hfind).2 haddress hslot]
        at hfind'
      exact hown j b hentry' slot' hfind'
    · rw [hslot] at hsl
      exact isSome_of_update_none hsl

theorem clearAllBreakpoints_inv {m : Machine}
    (h : Ledger.Inv ⟨m.dbg.entry, m.dbg.slot, user, wanted⟩) (hown : ∀ i, FindsOwn m user i)
    (write : Nat → Status) (hw : HwOutcome) :
    Ledger.Inv ⟨(clearAllBreakpoints write hw m).2.dbg.entry,
        (clearAllBreakpoints write hw m).2.dbg.slot, user, wanted⟩ ∧
      ∀ sl, ((clearAllBreakpoints write hw m).2.dbg.slot sl).isSome → (m.dbg.slot sl).isSome := by
  rw [clearAllBreakpoints]
  dsimp only
  split_ifs
  · exact ⟨h, fun _ hsl => hsl⟩
  all_goals
    have hfold := List.foldlRecOn (motive := fun m' : Machine =>
      Ledger.Inv ⟨m'.dbg.entry, m'.dbg.slot, user, wanted⟩ ∧ (∀ i, FindsOwn m' user i) ∧
        ∀ sl, (m'.dbg.slot sl).isSome → (m.dbg.slot sl).isSome)
      (List.range maxBreakpoints) (clearEntry write) ⟨h, hown, fun _ hsl => hsl⟩
      (fun m' hm' i _ => by
        obtain ⟨hinv, hown', hle⟩ := clearEntry_inv hm'.1 hm'.2.1 write i
        exact ⟨hinv, hown', fun sl hsl => hm'.2.2 sl (hle sl hsl)⟩)
  · rw [entry_syncHardwareDbregs, slot_syncHardwareDbregs]
    exact ⟨hfold.1, hfold.2.2⟩
  · exact ⟨hfold.1, hfold.2.2⟩

/-! ## Every run -/

theorem inv_step {s : Audit} {e : Event} (h : s.ledger.Inv) (hapt : s.Apt e) :
    (s.step e).ledger.Inv := by
  have hfresh (address : Nat) (hfind : s.machine.dbg.findBreakpointSlot address = none)
      (j : Nat) (k : BpKind) : s.machine.dbg.entry j ≠ some (address, k) := by
    intro hj
    refine Dbg.findBreakpointSlot_none hfind (h.entries j ?_) hj
    change (s.machine.dbg.entry j).isSome = true
    rw [hj]
    rfl
  obtain ⟨st, m', hres⟩ : ∃ st m', e.apply s.machine = (st, m') := ⟨_, _, rfl⟩
  cases e with
  | target t =>
    cases hres
    rw [ledger_step_of_eq rfl rfl rfl rfl]
    exact h
  | setBreakpoint address kind condReg condOp condValue o =>
    rcases setBreakpointCond_tables address kind condReg condOp condValue o s.machine m' st hres
      with ⟨hentry, hslot⟩ | ⟨hfind, i, hlt, hfree, ⟨hentry, hslot⟩ |
        ⟨hentry, slot, hltslot, hfreeslot, hslot⟩⟩
    · rw [ledger_step_of_eq hres hentry hslot (ite_self _)]
      exact h
    · rw [ledger_step_of_le hres (fun sl hsl => by rwa [hslot] at hsl) (ite_self _), hentry,
        hslot]
      exact h.addSoftware hlt hfree (hfresh address hfind)
    · rw [ledger_step_of_update hres hfreeslot hslot (ite_self _), hentry, hslot]
      exact h.addHardware hlt hfree (hfresh address hfind) hltslot hfreeslot
  | clearBreakpoint address write hw =>
    rcases clearBreakpoint_tables address write hw s.machine m' st hres with
      ⟨hentry, hslot⟩ | ⟨i, hfind, hentry, ⟨hkind, hslot⟩ |
        ⟨hkind, ⟨hnone, -⟩ | ⟨slot, hfind', hslot⟩⟩⟩
    · rw [ledger_step_of_eq hres hentry hslot (ite_self _)]
      exact h
    all_goals
      have hi := (Dbg.findBreakpointSlot_some hfind).2
      rw [hkind] at hi
    · rw [ledger_step_of_le hres (fun sl hsl => by rwa [hslot] at hsl) (ite_self _), hentry,
        hslot]
      exact h.dropSoftware hi
    · obtain ⟨slot, hfind', -⟩ := owns_of_findsOwn h hi (hapt i hfind)
      rw [hnone] at hfind'
      cases hfind'
    · obtain ⟨slot', hfind'', howns⟩ := owns_of_findsOwn h hi (hapt i hfind)
      rw [hfind'] at hfind''
      cases hfind''
      rw [ledger_step_of_le hres (fun sl hsl => isSome_of_update_none (by rwa [hslot] at hsl))
        (ite_self _), hentry, hslot]
      exact h.dropHardware howns
  | clearAllBreakpoints write hw =>
    obtain ⟨hinv, hle⟩ := clearAllBreakpoints_inv h hapt write hw
    rw [show clearAllBreakpoints write hw s.machine = (st, m') from hres] at hinv hle
    rw [ledger_step_of_le hres hle (ite_self _)]
    exact hinv
  | setWatchpoint address length type hw =>
    obtain ⟨hentry, ⟨hst, hslot⟩ | ⟨rfl, slot, hlt, hfree, hslot⟩⟩ :=
      setWatchpoint_tables address length type hw s.machine m' st hres
    · rw [ledger_step_of_eq hres hentry hslot (if_neg hst)]
      exact h
    · rw [ledger_step_of_update hres hfree hslot (if_pos rfl), hentry, hslot]
      exact h.addWatchpoint hlt hfree
  | clearWatchpoint address hw =>
    obtain ⟨hentry, ⟨hst, hslot⟩ | ⟨rfl, slot, hfind, hslot⟩⟩ :=
      clearWatchpoint_tables address hw s.machine m' st hres
    · rw [ledger_step_of_eq hres hentry hslot (if_neg hst)]
      exact h
    · rw [ledger_step_of_le hres (fun sl hsl => isSome_of_update_none (by rwa [hslot] at hsl))
        (if_pos rfl), hentry, hslot]
      exact h.dropWatchpoint (Dbg.findWatchpointSlot_some hfind).2 (hapt slot hfind)
  | clearAllWatchpoints hw =>
    obtain ⟨hentry, ⟨hst, hslot⟩ | ⟨rfl, hslot⟩⟩ :=
      clearAllWatchpoints_tables hw s.machine m' st h.slots hres
    · rw [ledger_step_of_eq hres hentry hslot (if_neg hst)]
      exact h
    · rw [ledger_step_of_le hres (fun sl hsl => by rw [hslot] at hsl; cases hsl) (if_pos rfl),
        hentry, hslot]
      exact h.dropWatchpoints hapt

theorem inv_attach (t : Target) : (attach t).ledger.Inv where
  entries i hi := by cases hi
  slots i hi := by cases hi
  distinct i j a k k' hi := by cases hi
  has i a hi := by cases hi
  only i slot slot' hi := by
    obtain ⟨a, hentry, -⟩ := hi
    cases hentry
  released slot w hw := by cases hw
  kept a l t ha := by cases ha

/-- In every run in which the requests that clear find what they are meant to clear,
breakpoints and watchpoints own disjoint slots. -/
theorem owned_of_apt_run {t : Target} {es : List Event} {s : Audit}
    (h : Run (fun s e => some (s.step e)) Apt (attach t) es s) : s.ledger.Owned := by
  refine Ledger.Inv.owned (h.invariant (P := fun s => s.ledger.Inv) ?_ (inv_attach t))
  rintro s e s' hs hapt ⟨⟩
  exact inv_step hs hapt

def pair : Audit :=
  [.setBreakpoint 0x1000 1 0 0 0 ⟨.ok, .ok, .fine⟩, .setWatchpoint 0x2000 4 1 .fine].foldl step
    (attach (.idle [1]))

theorem owned_of_apt_run_pair :
    (pair.step (.clearBreakpoint 0x1000 .ok .fine)).ledger.Owned := by
  have hfind : pair.machine.dbg.findBreakpointSlot 0x1000 = some 0 := by decide
  have hentry : pair.machine.dbg.entry 0 = some (0x1000, .hardware) := by decide
  have hslot : pair.machine.dbg.findWatchpointSlot 0x1000 = some 0 := by decide
  have hapt : pair.Apt (.clearBreakpoint 0x1000 .ok .fine) := by
    intro i hi a ha slot hfound
    cases hfind.symm.trans hi
    cases hentry.symm.trans ha
    cases hslot.symm.trans hfound
    decide
  have hrun : Run (fun s e => some (s.step e)) Apt (attach (.idle [1]))
      [.setBreakpoint 0x1000 1 0 0 0 ⟨.ok, .ok, .fine⟩, .setWatchpoint 0x2000 4 1 .fine,
        .clearBreakpoint 0x1000 .ok .fine] (pair.step (.clearBreakpoint 0x1000 .ok .fine)) :=
    .cons trivial rfl (.cons trivial rfl (.cons hapt rfl (.nil _)))
  exact owned_of_apt_run hrun

theorem clearAllWatchpoints_orphans :
    ¬ ([.setBreakpoint 0x1000 1 0 0 0 ⟨.ok, .ok, .fine⟩, .clearAllWatchpoints .fine].foldl step
      (attach (.idle [1]))).ledger.Owned := by
  intro h
  obtain ⟨slot, ⟨a, -, hslot, -⟩, -⟩ := h.owns 0 0x1000 (by decide)
  rw [show (ledger _).slot slot = none from rfl] at hslot
  cases hslot

end Audit

end MemDbg.Debug
