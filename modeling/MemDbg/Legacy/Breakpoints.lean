import MemDbg.Debug.Registers
import MemDbg.Legacy.Common
import MemDbg.Lib.Mirror

/-!
# Indexed breakpoints

A legacy client names its breakpoints and watchpoints by an index.  Beside the tables of the
debugger the bridge keeps, for each index, the address that was set under it.
-/

namespace MemDbg.Legacy

open List Debug Function Lib

/-! ## The handlers -/

structure LegacyDebugger where
  machine : Machine
  breakpoints : Nat → Nat
  watchpoints : Nat → Nat

open LegacyDebugger

def LegacyDebugger.attach (t : Target) : LegacyDebugger where
  machine := ⟨Dbg.attach, t⟩
  breakpoints _ := 0
  watchpoints _ := 0

def legacyBreakpoints : Nat := 30

def legacyWatchpoints : Nat := 4

structure IndexedBreakpoint where
  index : Nat
  enabled : Nat
  address : Nat
deriving DecidableEq

structure IndexedWatchpoint where
  index : Nat
  enabled : Nat
  length : Nat
  breakType : Nat
  address : Nat
deriving DecidableEq

def indexedBreakpoint (body : List UInt8) : Option IndexedBreakpoint :=
  if body.length ≠ 16 then none else some ⟨field body 0 4, field body 4 4, field body 8 8⟩

def indexedWatchpoint (body : List UInt8) : Option IndexedWatchpoint :=
  if body.length ≠ 24 then none
  else some ⟨field body 0 4, field body 4 4, field body 8 4, field body 12 4, field body 16 8⟩

def lengths (n : Nat) : Nat :=
  match n % 4 with
  | 0 => 1
  | 1 => 2
  | 2 => 8
  | _ => 4

def setBp (o : SetOutcome) (req : IndexedBreakpoint) (s : LegacyDebugger) :
    Status × LegacyDebugger :=
  if req.enabled ≠ 0 then
    let (st, m) := setBreakpointCond req.address 0 0 0 0 o s.machine
    (st, { s with
      machine := m
      breakpoints := if st = .ok then update s.breakpoints req.index req.address
        else s.breakpoints })
  else
    let address := s.breakpoints req.index
    let (st, m) := if address ≠ 0 then clearBreakpoint address o.write o.hw s.machine
      else (.ok, s.machine)
    (st, { s with
      machine := m
      breakpoints := if st = .ok then update s.breakpoints req.index 0 else s.breakpoints })

def setWp (o : SetOutcome) (req : IndexedWatchpoint) (s : LegacyDebugger) :
    Status × LegacyDebugger :=
  if req.enabled ≠ 0 then
    let type := if req.breakType = 0 then 0 else if req.breakType = 1 then 1 else 3
    let (st, m) := setWatchpoint req.address (lengths req.length) type o.hw s.machine
    (st, { s with
      machine := m
      watchpoints := if st = .ok then update s.watchpoints req.index req.address
        else s.watchpoints })
  else
    let address := s.watchpoints req.index
    let (st, m) := if address ≠ 0 then clearWatchpoint address o.hw s.machine
      else (.ok, s.machine)
    (st, { s with
      machine := m
      watchpoints := if st = .ok then update s.watchpoints req.index 0 else s.watchpoints })

inductive IndexedCommand where
  | setBp (body : List UInt8)
  | setWp (body : List UInt8)
deriving DecidableEq

def LegacyDebugger.legacyHandleDebugCommand (o : SetOutcome) (s : LegacyDebugger) :
    IndexedCommand → UInt32 × LegacyDebugger
  | .setBp body =>
    match indexedBreakpoint body with
    | none => (legacyStatusFromMemdbg .errParam, s)
    | some req =>
      if req.index ≥ legacyBreakpoints then (cmdInvalidIndex, s)
      else ((legacyStatusFromMemdbg (setBp o req s).1), (setBp o req s).2)
  | .setWp body =>
    match indexedWatchpoint body with
    | none => (legacyStatusFromMemdbg .errParam, s)
    | some req =>
      if req.index ≥ legacyWatchpoints then (cmdInvalidIndex, s)
      else ((legacyStatusFromMemdbg (setWp o req s).1), (setWp o req s).2)

/-! ## What is installed -/

def softSlot (m : Machine) (i : Nat) : Option Nat :=
  let bp := m.dbg.breakpoints i
  if bp.active ∧ bp.kind = .software ∧ bp.installed then some bp.address else none

def watchSlot (m : Machine) (i : Nat) : Option Nat :=
  let wp := m.dbg.watchpoints i
  if wp.installed then some wp.address else none

def AllSoft (m : Machine) : Prop :=
  ∀ i, (m.dbg.breakpoints i).active = true →
    (m.dbg.breakpoints i).kind = .software ∧ (m.dbg.breakpoints i).installed = true

variable {m m' : Machine} {st : Status} {a : Nat} {o : SetOutcome}

theorem softSlot_update {i : Nat} {bp : Breakpoint}
    (h : m'.dbg.breakpoints = update m.dbg.breakpoints i bp) :
    softSlot m' = update (softSlot m) i
      (if bp.active ∧ bp.kind = .software ∧ bp.installed then some bp.address else none) := by
  funext j
  unfold softSlot
  rw [h]
  rcases eq_or_ne j i with rfl | hne
  · rw [update_self, update_self]
  · rw [update_of_ne hne, update_of_ne hne]

theorem softSlot_congr (h : m'.dbg.breakpoints = m.dbg.breakpoints) :
    softSlot m' = softSlot m := by
  funext i
  unfold softSlot
  rw [h]

theorem AllSoft.update {i : Nat} {bp : Breakpoint} (h : AllSoft m)
    (hbp : bp.active = true → bp.kind = .software ∧ bp.installed = true)
    (heq : m'.dbg.breakpoints = update m.dbg.breakpoints i bp) : AllSoft m' := by
  intro j
  rw [heq]
  rcases eq_or_ne j i with rfl | hne
  · rw [update_self]
    exact hbp
  · rw [update_of_ne hne]
    exact h j

theorem AllSoft.drop {i : Nat} (h : AllSoft m)
    (heq : m'.dbg.breakpoints = Function.update m.dbg.breakpoints i Breakpoint.zero) :
    AllSoft m' ∧ Legacy.softSlot m' = Function.update (Legacy.softSlot m) i none := by
  refine ⟨h.update (fun hactive => absurd hactive (by decide)) heq, ?_⟩
  rw [softSlot_update heq, if_neg (by decide)]

theorem softSlot_of_inactive {i : Nat} (h : (m.dbg.breakpoints i).active = false) :
    softSlot m i = none := by
  refine if_neg fun hall => ?_
  rw [h] at hall
  cases hall.1

theorem AllSoft.softSlot (h : AllSoft m) {i : Nat} (hi : (m.dbg.breakpoints i).active = true) :
    softSlot m i = some (m.dbg.breakpoints i).address := if_pos ⟨hi, h i hi⟩

theorem softSlot_eq_some {i : Nat} (h : softSlot m i = some a) :
    (m.dbg.breakpoints i).active = true ∧ (m.dbg.breakpoints i).address = a := by
  unfold softSlot at h
  dsimp only at h
  split_ifs at h with hall
  exact ⟨hall.1, Option.some.inj h⟩

def SameWatch (m m' : Machine) : Prop :=
  m'.dbg.attached = m.dbg.attached ∧ m'.dbg.watchpoints = m.dbg.watchpoints ∧
    m'.dbg.dbregsValid = m.dbg.dbregsValid

theorem softSlot_of_find (h : AllSoft m) {i : Nat} (hfind : m.dbg.findBreakpointSlot a = some i) :
    i < maxBreakpoints ∧ (m.dbg.breakpoints i).active = true ∧ softSlot m i = some a := by
  have hfound := find?_some hfind
  rw [Bool.and_eq_true, beq_iff_eq] at hfound
  refine ⟨mem_range.mp (mem_of_find?_eq_some hfind), hfound.1, ?_⟩
  rw [h.softSlot hfound.1, hfound.2]

theorem softSlot_of_not_find (hfind : m.dbg.findBreakpointSlot a = none) :
    ∀ j < maxBreakpoints, softSlot m j ≠ some a := by
  intro j hj hslot
  obtain ⟨hactive, haddress⟩ := softSlot_eq_some hslot
  have hnot := find?_eq_none.mp hfind j (mem_range.mpr hj)
  rw [hactive, haddress] at hnot
  simp at hnot

theorem setBreakpointCond_software (h : AllSoft m) (hattached : m.dbg.attached = true)
    (hset : setBreakpointCond a 0 0 0 0 o m = (st, m')) :
    AllSoft m' ∧ SameWatch m m' ∧
      ((st ≠ .ok ∧ softSlot m' = softSlot m) ∨
        st = .ok ∧ (∀ j < maxBreakpoints, softSlot m j ≠ some a) ∧
          m.dbg.allocBreakpointSlot.isSome = true ∧
            ∃ i < maxBreakpoints, softSlot m i = none ∧
              softSlot m' = update (softSlot m) i (some a)) := by
  have hsame : ∀ {x : Status}, x ≠ .ok → (x, m) = (st, m') → AllSoft m' ∧ SameWatch m m' ∧
      st ≠ .ok ∧ softSlot m' = softSlot m := by
    rintro x hx ⟨⟩
    exact ⟨h, ⟨rfl, rfl, rfl⟩, hx, rfl⟩
  rw [setBreakpointCond, if_neg (by rw [hattached]; decide), if_neg (by decide),
    if_neg (by decide)] at hset
  cases hfind : m.dbg.findBreakpointSlot a with
  | some i =>
    rw [hfind] at hset
    obtain ⟨hsoft, hwatch, hst⟩ := hsame (by decide) hset
    exact ⟨hsoft, hwatch, .inl hst⟩
  | none =>
  cases halloc : m.dbg.allocBreakpointSlot with
  | none =>
    rw [hfind, halloc] at hset
    obtain ⟨hsoft, hwatch, hst⟩ := hsame (by decide) hset
    exact ⟨hsoft, hwatch, .inl hst⟩
  | some i =>
    rw [hfind, halloc] at hset
    have hfree := find?_some halloc
    have hlt := mem_range.mp (mem_of_find?_eq_some halloc)
    rw [Bool.not_eq_true'] at hfree
    have hnone := softSlot_of_inactive hfree
    have hback : update (softSlot m) i none = softSlot m := by
      rw [← hnone]
      exact update_eq_self i (softSlot m)
    obtain ⟨x, m₂, hinstall, hwatch, bp, hbps, hbp⟩ : ∃ x m₂,
        installSwBreakpoint o.read o.write i (m.setBp i
          ⟨a, .software, 0, false, true, 0, 0, 0⟩) = (x, m₂) ∧ SameWatch m m₂ ∧
        ∃ bp, m₂.dbg.breakpoints = update m.dbg.breakpoints i bp ∧
          (x = .ok → bp.active = true ∧ bp.kind = .software ∧ bp.installed = true ∧
            bp.address = a) := by
      unfold installSwBreakpoint
      have hentry : (m.setBp i ⟨a, .software, 0, false, true, 0, 0, 0⟩).dbg.breakpoints i =
          ⟨a, .software, 0, false, true, 0, 0, 0⟩ := update_self ..
      rw [hentry]
      rw [if_neg Bool.false_ne_true]
      by_cases hread : o.read = .ok
      · rw [if_neg (Decidable.not_not.mpr hread)]
        by_cases hwrite : o.write = .ok
        · rw [if_neg (Decidable.not_not.mpr hwrite)]
          refine ⟨_, _, rfl, ⟨rfl, rfl, rfl⟩,
            ⟨a, .software, m.target.mem a, true, true, 0, 0, 0⟩, ?_,
            fun _ => ⟨rfl, rfl, rfl, rfl⟩⟩
          dsimp only [Machine.setBp]
          rw [update_idem, update_idem]
        · rw [if_pos hwrite]
          exact ⟨_, _, rfl, ⟨rfl, rfl, rfl⟩, _, update_idem .., fun hok => absurd hok hwrite⟩
      · rw [if_pos hread]
        exact ⟨_, _, rfl, ⟨rfl, rfl, rfl⟩, _, rfl, fun hok => absurd hok hread⟩
    simp only [bpKindOf, hinstall] at hset
    by_cases hx : x = .ok
    · obtain ⟨hactive, hkind, hinstalled, haddress⟩ := hbp hx
      simp only [hx, if_true] at hset
      cases hset
      refine ⟨h.update (fun _ => ⟨hkind, hinstalled⟩) hbps, hwatch, .inr
        ⟨rfl, softSlot_of_not_find hfind, rfl, i, hlt, hnone, ?_⟩⟩
      rw [softSlot_update hbps, if_pos ⟨hactive, hkind, hinstalled⟩, haddress]
    · simp only [hx, if_false] at hset
      cases hset
      -- the entry is left empty again
      have hdropped : (m₂.setBp i Breakpoint.zero).dbg.breakpoints =
          update m.dbg.breakpoints i Breakpoint.zero := by
        dsimp only [Machine.setBp]
        rw [hbps, update_idem]
      obtain ⟨hsoft, hslots⟩ := h.drop hdropped
      exact ⟨hsoft, hwatch, .inl ⟨hx, hslots.trans hback⟩⟩

theorem clearBreakpoint_software (h : AllSoft m) (hattached : m.dbg.attached = true)
    {write : Status} {hw : HwOutcome} (hclear : clearBreakpoint a write hw m = (st, m')) :
    AllSoft m' ∧ SameWatch m m' ∧
      ((st ≠ .ok ∧ softSlot m' = softSlot m ∧
          (write = .ok → ∀ j < maxBreakpoints, softSlot m j ≠ some a)) ∨
        st = .ok ∧ ∃ i < maxBreakpoints, softSlot m i = some a ∧
          softSlot m' = update (softSlot m) i none) := by
  rw [clearBreakpoint, if_neg (by rw [hattached]; decide)] at hclear
  cases hfind : m.dbg.findBreakpointSlot a with
  | none =>
    rw [hfind] at hclear
    cases hclear
    exact ⟨h, ⟨rfl, rfl, rfl⟩, .inl ⟨(by rintro ⟨⟩), rfl, fun _ => softSlot_of_not_find hfind⟩⟩
  | some i =>
    obtain ⟨hlt, hactive, hslot⟩ := softSlot_of_find h hfind
    obtain ⟨hkind, hinstalled⟩ := h i hactive
    have hthere : ¬(!(m.dbg.breakpoints i).installed) = true := by rw [hinstalled]; decide
    rw [hfind] at hclear
    by_cases hwrite : write = .ok
    · obtain ⟨m₂, huninstall, hwatch, hbps⟩ : ∃ m₂, uninstallSwBreakpoint write i m = (.ok, m₂) ∧
          SameWatch m m₂ ∧ ∃ bp, m₂.dbg.breakpoints = update m.dbg.breakpoints i bp := by
        unfold uninstallSwBreakpoint
        exact ⟨_, (if_neg hthere).trans (if_neg (Decidable.not_not.mpr hwrite)),
          ⟨rfl, rfl, rfl⟩, _, rfl⟩
      obtain ⟨bp, hbps⟩ := hbps
      simp only [hkind, huninstall, if_true] at hclear
      cases hclear
      have hdropped : (m₂.setBp i Breakpoint.zero).dbg.breakpoints =
          update m.dbg.breakpoints i Breakpoint.zero := by
        dsimp only [Machine.setBp]
        rw [hbps, update_idem]
      obtain ⟨hsoft, hslots⟩ := h.drop hdropped
      exact ⟨hsoft, hwatch, .inr ⟨rfl, i, hlt, hslot, hslots⟩⟩
    · have huninstall : uninstallSwBreakpoint write i m = (write, m) := by
        unfold uninstallSwBreakpoint
        exact (if_neg hthere).trans (if_pos hwrite)
      simp only [hkind, huninstall, hwrite, if_false] at hclear
      cases hclear
      exact ⟨h, ⟨rfl, rfl, rfl⟩, .inl ⟨hwrite, rfl, fun hok => absurd hok hwrite⟩⟩

/-! ## Watchpoints -/

def SameSoft (m m' : Machine) : Prop :=
  m'.dbg.attached = m.dbg.attached ∧ m'.dbg.breakpoints = m.dbg.breakpoints

def ReadOnce (m : Machine) : Prop := ∀ i, (watchSlot m i).isSome = true → m.dbg.dbregsValid = true

theorem watchSlot_update {i : Nat} {wp : Watchpoint}
    (h : m'.dbg.watchpoints = update m.dbg.watchpoints i wp) :
    watchSlot m' = update (watchSlot m) i (if wp.installed then some wp.address else none) := by
  funext j
  unfold watchSlot
  rw [h]
  rcases eq_or_ne j i with rfl | hne
  · rw [update_self, update_self]
  · rw [update_of_ne hne, update_of_ne hne]

theorem watchSlot_congr (h : m'.dbg.watchpoints = m.dbg.watchpoints) :
    watchSlot m' = watchSlot m := by
  funext i
  unfold watchSlot
  rw [h]

theorem watchSlot_of_find {i : Nat} (hfind : m.dbg.findWatchpointSlot a = some i) :
    i < maxWatchpoints ∧ watchSlot m i = some a := by
  have hfound := find?_some hfind
  rw [Bool.and_eq_true, beq_iff_eq] at hfound
  refine ⟨mem_range.mp (mem_of_find?_eq_some hfind), ?_⟩
  rw [← hfound.2]
  exact if_pos hfound.1

theorem watchSlot_of_not_find (hfind : m.dbg.findWatchpointSlot a = none) :
    ∀ j < maxWatchpoints, watchSlot m j ≠ some a := by
  intro j hj hslot
  unfold watchSlot at hslot
  dsimp only at hslot
  split_ifs at hslot with hinstalled
  have hnot := find?_eq_none.mp hfind j (mem_range.mpr hj)
  rw [hinstalled, Option.some.inj hslot] at hnot
  simp at hnot

theorem syncHardwareDbregs_leaves (partly : Bool) (hw : HwOutcome) (m : Machine) :
    SameSoft m (syncHardwareDbregs partly hw m).2 ∧
      (syncHardwareDbregs partly hw m).2.dbg.watchpoints = m.dbg.watchpoints ∧
      (m.dbg.dbregsValid = true ∨ (syncHardwareDbregs partly hw m).1 = .ok →
        (syncHardwareDbregs partly hw m).2.dbg.dbregsValid = true) := by
  obtain ⟨dbregs, valid, dr, heq⟩ := syncHardwareDbregs_eq partly hw m
  refine ⟨by rw [heq]; exact ⟨rfl, rfl⟩, by rw [heq]; rfl, fun h => ?_⟩
  clear heq
  obtain ⟨st₁, m₁, hrefresh⟩ : ∃ st₁ m₁, refreshDbregs hw m = (st₁, m₁) := ⟨_, _, rfl⟩
  obtain ⟨dbregs, valid, rfl, hvalid, hok, hfine⟩ := refreshDbregs_spec hrefresh
  unfold syncHardwareDbregs at h ⊢
  rw [hrefresh] at h ⊢
  have hdone : valid = true := by
    by_contra hnot
    rw [Bool.not_eq_true] at hnot
    have hnone : m.dbg.dbregsValid ≠ true := by
      rw [hvalid hnot]
      decide
    have hst : st₁ ≠ .ok := fun hst => by
      rw [hok hst] at hnot
      cases hnot
    refine h.elim hnone fun hsync => ?_
    cases st₁
    all_goals first | exact hst rfl | cases hsync
  subst hdone
  cases st₁ with
  | ok =>
    dsimp only
    obtain ⟨dr, happly⟩ := applyDbregsToAll_eq partly hw
      { m.withDbregs dbregs true m.target.dr with
        dbg := { (m.withDbregs dbregs true m.target.dr).dbg with
          dbregs := configured (m.withDbregs dbregs true m.target.dr).dbg.watchpoints
            (m.withDbregs dbregs true m.target.dr).dbg.dbregs } }
    split
    · rename_i m₂ hm₂
      rw [hm₂] at happly
      rw [happly]
      rfl
    · rename_i st m₂ _ hm₂
      rw [hm₂] at happly
      dsimp only at happly ⊢
      rw [happly]
      rfl
  | _ => rfl

theorem syncHardwareDbregs_fine (h : m.dbg.dbregsValid = true) :
    (syncHardwareDbregs false .fine m).1 = .ok := by
  have happly : ∀ m : Machine, (applyDbregsToAll false .fine m).1 = .ok := by
    intro m
    have hnone : (m.threads.foldl (applyThread m.dbg.dbregs .fine)
        ⟨m.target.dr, [], 0, .ok⟩).skipped = 0 :=
      List.foldlRecOn (motive := fun a : Applied => a.skipped = 0) m.threads _ rfl
        fun a ha lwp _ => ha
    have hdone : (decide ((m.threads.foldl (applyThread m.dbg.dbregs .fine)
        ⟨m.target.dr, [], 0, .ok⟩).skipped = 0) || false && decide ((m.threads.foldl
          (applyThread m.dbg.dbregs .fine) ⟨m.target.dr, [], 0, .ok⟩).changed ≠ [])) = true := by
      rw [hnone]
      rfl
    unfold applyDbregsToAll
    by_cases hempty : m.threads.length = 0
    · rw [if_pos hempty]
      rfl
    · rw [if_neg hempty, if_neg (by decide)]
      rw [if_pos hdone]
  unfold syncHardwareDbregs
  rw [show refreshDbregs .fine m = (.ok, m) from if_pos h]
  dsimp only
  have hst := happly { m with dbg := { m.dbg with
    dbregs := configured m.dbg.watchpoints m.dbg.dbregs } }
  split
  · rfl
  · rename_i st m' hne heq
    rw [heq] at hst
    exact (hne hst).elim

theorem setWatchpoint_spec (h : ReadOnce m) {l t : Nat} {hw : HwOutcome}
    (hset : setWatchpoint a l t hw m = (st, m')) :
    ReadOnce m' ∧ SameSoft m m' ∧
      ((st ≠ .ok ∧ watchSlot m' = watchSlot m) ∨
        st = .ok ∧ (∀ j < maxWatchpoints, watchSlot m j ≠ some a) ∧
          m.dbg.allocHwSlot.isSome = true ∧
            ∃ i < maxWatchpoints, watchSlot m i = none ∧
              watchSlot m' = update (watchSlot m) i (some a)) := by
  have hsame : ∀ {x : Status}, x ≠ .ok → (x, m) = (st, m') → ReadOnce m' ∧ SameSoft m m' ∧
      ((st ≠ .ok ∧ watchSlot m' = watchSlot m) ∨
        st = .ok ∧ (∀ j < maxWatchpoints, watchSlot m j ≠ some a) ∧
          m.dbg.allocHwSlot.isSome = true ∧
            ∃ i < maxWatchpoints, watchSlot m i = none ∧
              watchSlot m' = update (watchSlot m) i (some a)) := by
    rintro x hx ⟨⟩
    exact ⟨h, ⟨rfl, rfl⟩, .inl ⟨hx, rfl⟩⟩
  rw [setWatchpoint] at hset
  split_ifs at hset with hnot hlength htype hfind
  · exact hsame (by decide) hset
  · exact hsame (by decide) hset
  · exact hsame (by decide) hset
  · exact hsame (by decide) hset
  rw [Option.not_isSome_iff_eq_none] at hfind
  cases halloc : m.dbg.allocHwSlot with
  | none =>
    rw [halloc] at hset
    exact halloc ▸ hsame (by decide) hset
  | some i =>
    rw [halloc] at hset
    have hfree := find?_some halloc
    have hlt := mem_range.mp (mem_of_find?_eq_some halloc)
    rw [Bool.not_eq_true'] at hfree
    have hnone : watchSlot m i = none := if_neg (by rw [hfree]; decide)
    obtain ⟨hsoft, hwatch, hvalid⟩ :=
      syncHardwareDbregs_leaves true hw (m.setWp i ⟨a, l, t, i, true⟩)
    obtain ⟨x, m₂, hsync⟩ : ∃ x m₂,
        syncHardwareDbregs true hw (m.setWp i ⟨a, l, t, i, true⟩) = (x, m₂) := ⟨_, _, rfl⟩
    dsimp only at hset
    rw [hsync] at hset hsoft hwatch hvalid
    split at hset
    · rename_i m₃ hok
      cases hok
      cases hset
      refine ⟨fun _ _ => hvalid (.inr rfl), hsoft, .inr ⟨rfl, watchSlot_of_not_find hfind, rfl, i,
        hlt, hnone, ?_⟩⟩
      rw [watchSlot_update hwatch]
      rfl
    · rename_i st₃ m₃ hne hfailed
      cases hfailed
      cases hset
      -- the slot is free again
      have hdropped : (m₂.setWp i Watchpoint.zero).dbg.watchpoints =
          update m.dbg.watchpoints i Watchpoint.zero := by
        dsimp only [Machine.setWp] at hwatch ⊢
        rw [hwatch, update_idem]
      have hslots : watchSlot (m₂.setWp i Watchpoint.zero) = watchSlot m := by
        rw [watchSlot_update hdropped, if_neg (by decide), ← hnone]
        exact update_eq_self i (watchSlot m)
      refine ⟨fun j hj => ?_, hsoft, .inl ⟨hne, hslots⟩⟩
      rw [hslots] at hj
      exact hvalid (.inl (h j hj))

theorem clearWatchpoint_spec (h : ReadOnce m) (hattached : m.dbg.attached = true)
    {hw : HwOutcome} (hclear : clearWatchpoint a hw m = (st, m')) :
    ReadOnce m' ∧ SameSoft m m' ∧
      ((st ≠ .ok ∧ watchSlot m' = watchSlot m ∧
          (hw = .fine → ∀ j < maxWatchpoints, watchSlot m j ≠ some a)) ∨
        st = .ok ∧ ∃ i < maxWatchpoints, watchSlot m i = some a ∧
          watchSlot m' = update (watchSlot m) i none) := by
  rw [clearWatchpoint, if_neg (by rw [hattached]; decide)] at hclear
  cases hfind : m.dbg.findWatchpointSlot a with
  | none =>
    rw [hfind] at hclear
    cases hclear
    exact ⟨h, ⟨rfl, rfl⟩, .inl ⟨by decide, rfl, fun _ => watchSlot_of_not_find hfind⟩⟩
  | some i =>
    obtain ⟨hlt, hslot⟩ := watchSlot_of_find hfind
    have hread : m.dbg.dbregsValid = true := h i (by rw [hslot]; rfl)
    rw [hfind] at hclear
    dsimp only [clearHardwareSlot] at hclear
    obtain ⟨hsoft, hwatch, hvalid⟩ :=
      syncHardwareDbregs_leaves false hw (m.setWp i Watchpoint.zero)
    have hfine := @syncHardwareDbregs_fine (m.setWp i Watchpoint.zero) hread
    obtain ⟨x, m₂, hsync⟩ : ∃ x m₂,
        syncHardwareDbregs false hw (m.setWp i Watchpoint.zero) = (x, m₂) := ⟨_, _, rfl⟩
    rw [hsync] at hclear hsoft hwatch hvalid
    split at hclear
    · rename_i m₃ hok
      cases hok
      cases hclear
      refine ⟨fun _ _ => hvalid (.inl hread), hsoft, .inr ⟨rfl, i, hlt, hslot, ?_⟩⟩
      rw [watchSlot_update hwatch, if_neg (by decide)]
    · rename_i st₃ m₃ hne hfailed
      cases hfailed
      cases hclear
      -- the watchpoint is back
      have hback : (m₂.setWp i (m.dbg.watchpoints i)).dbg.watchpoints = m.dbg.watchpoints := by
        dsimp only [Machine.setWp] at hwatch ⊢
        rw [hwatch, update_idem]
        exact update_eq_self i m.dbg.watchpoints
      refine ⟨fun _ _ => hvalid (.inl hread), hsoft, .inl ⟨hne, watchSlot_congr hback, ?_⟩⟩
      rintro rfl
      rw [hsync] at hfine
      exact (hne hfine).elim

/-! ## A session -/

structure LegacyDebugger.Inv (s : LegacyDebugger) : Prop where
  attached : s.machine.dbg.attached = true
  soft : AllSoft s.machine
  read : ReadOnce s.machine
  breakpoints :
    Mirrors legacyBreakpoints s.breakpoints maxBreakpoints (softSlot s.machine)
  watchpoints :
    Mirrors legacyWatchpoints s.watchpoints maxWatchpoints (watchSlot s.machine)

def Tidy (n : Nat) (held : Nat → Nat) (full : Bool) (index address : Nat) : Prop :=
  (address ≠ 0 ∧ (held index = 0 ∨ ∃ i < n, held i = address)) ∨ full = true

theorem LegacyDebugger.inv_attach (t : Target) : (attach t).Inv where
  attached := rfl
  soft _ hactive := by cases hactive
  read _ hsome := by cases hsome
  breakpoints := Mirrors.empty
  watchpoints := Mirrors.empty

section

variable {s : LegacyDebugger}

theorem setBp_inv_of_enabled (h : s.Inv) {req : IndexedBreakpoint}
    (hindex : req.index < legacyBreakpoints) (henabled : req.enabled ≠ 0)
    (htidy : Tidy legacyBreakpoints s.breakpoints s.machine.dbg.allocBreakpointSlot.isNone
      req.index req.address) :
    (setBp o req s).2.Inv := by
  unfold setBp
  rw [if_pos henabled]
  obtain ⟨st, m, hset⟩ : ∃ st m,
      setBreakpointCond req.address 0 0 0 0 o s.machine = (st, m) := ⟨_, _, rfl⟩
  obtain ⟨hsoft, ⟨hattached, hwatch, hvalid⟩, hcases⟩ :=
    setBreakpointCond_software h.soft h.attached hset
  have hwatches := watchSlot_congr hwatch
  rw [hset]
  dsimp only
  refine ⟨hattached.trans h.attached, hsoft, fun i hi => ?_, ?_, hwatches ▸ h.watchpoints⟩
  · rw [hwatches] at hi
    exact hvalid.trans (h.read i hi)
  · obtain ⟨hst, hslots⟩ | ⟨hst, hfresh, halloc, j, hj, hfree, hslots⟩ := hcases
    · rw [if_neg hst]
      exact hslots ▸ h.breakpoints
    · rw [if_pos hst]
      obtain ⟨hne, hempty | ⟨i, hi, hheld⟩⟩ | hfull := htidy
      · exact hslots ▸ h.breakpoints.set hindex hj hfree hfresh hne hempty
      · obtain ⟨j', hj', hslot⟩ := (h.breakpoints.exact req.address).mpr ⟨hne, i, hi, hheld⟩
        exact absurd hslot (hfresh j' hj')
      · rw [Option.isNone_iff_eq_none] at hfull
        rw [hfull] at halloc
        cases halloc

theorem setBp_of_disabled (h : s.Inv) {req : IndexedBreakpoint}
    (hindex : req.index < legacyBreakpoints) (hdisabled : req.enabled = 0) :
    (setBp o req s).2.Inv ∧
      (o.write = .ok → ∀ a ≠ 0, s.breakpoints req.index = a →
        ∀ j < maxBreakpoints, softSlot (setBp o req s).2.machine j ≠ some a) := by
  unfold setBp
  rw [if_neg (Decidable.not_not.mpr hdisabled)]
  dsimp only
  by_cases hheld : s.breakpoints req.index = 0
  · have hsame : update s.breakpoints req.index 0 = s.breakpoints := by
      rw [← hheld]
      exact update_eq_self _ _
    rw [if_neg (Decidable.not_not.mpr hheld), if_pos rfl, hsame]
    exact ⟨h, fun _ a ha hheld' => absurd (hheld'.symm.trans hheld) ha⟩
  · rw [if_pos hheld]
    obtain ⟨st, m, hclear⟩ : ∃ st m,
        clearBreakpoint (s.breakpoints req.index) o.write o.hw s.machine = (st, m) := ⟨_, _, rfl⟩
    obtain ⟨hsoft, ⟨hattached, hwatch, hvalid⟩, hcases⟩ :=
      clearBreakpoint_software h.soft h.attached hclear
    have hwatches := watchSlot_congr hwatch
    have hread : ReadOnce m := fun i hi => by
      rw [hwatches] at hi
      exact hvalid.trans (h.read i hi)
    rw [hclear]
    obtain ⟨hst, hslots, hfine⟩ | ⟨hst, j, hj, hslot, hslots⟩ := hcases
    · rw [if_neg hst]
      refine ⟨⟨hattached.trans h.attached, hsoft, hread, hslots ▸ h.breakpoints,
        hwatches ▸ h.watchpoints⟩, fun hwrite a _ hheld' => ?_⟩
      rw [hslots, ← hheld']
      exact hfine hwrite
    · rw [if_pos hst]
      refine ⟨⟨hattached.trans h.attached, hsoft, hread,
        hslots ▸ h.breakpoints.clear hindex hj hslot, hwatches ▸ h.watchpoints⟩,
        fun _ a _ hheld' => ?_⟩
      rw [hslots, ← hheld']
      exact h.breakpoints.not_mem_clear hj hslot

theorem setWp_inv_of_enabled (h : s.Inv) {req : IndexedWatchpoint}
    (hindex : req.index < legacyWatchpoints) (henabled : req.enabled ≠ 0)
    (htidy : Tidy legacyWatchpoints s.watchpoints s.machine.dbg.allocHwSlot.isNone req.index
      req.address) :
    (setWp o req s).2.Inv := by
  unfold setWp
  rw [if_pos henabled]
  dsimp only
  generalize (if req.breakType = 0 then 0 else if req.breakType = 1 then 1 else 3) = t
  obtain ⟨st, m, hset⟩ : ∃ st m,
      setWatchpoint req.address (lengths req.length) t o.hw s.machine = (st, m) := ⟨_, _, rfl⟩
  obtain ⟨hread, ⟨hattached, hbps⟩, hcases⟩ := setWatchpoint_spec h.read hset
  have hsofts := softSlot_congr hbps
  rw [hset]
  refine ⟨hattached.trans h.attached, fun i => hbps ▸ h.soft i, hread, hsofts ▸ h.breakpoints, ?_⟩
  obtain ⟨hst, hslots⟩ | ⟨hst, hfresh, halloc, j, hj, hfree, hslots⟩ := hcases
  · rw [if_neg hst]
    exact hslots ▸ h.watchpoints
  · rw [if_pos hst]
    obtain ⟨hne, hempty | ⟨i, hi, hheld⟩⟩ | hfull := htidy
    · exact hslots ▸ h.watchpoints.set hindex hj hfree hfresh hne hempty
    · obtain ⟨j', hj', hslot⟩ := (h.watchpoints.exact req.address).mpr ⟨hne, i, hi, hheld⟩
      exact absurd hslot (hfresh j' hj')
    · rw [Option.isNone_iff_eq_none] at hfull
      rw [hfull] at halloc
      cases halloc

theorem setWp_of_disabled (h : s.Inv) {req : IndexedWatchpoint}
    (hindex : req.index < legacyWatchpoints) (hdisabled : req.enabled = 0) :
    (setWp o req s).2.Inv ∧
      (o.hw = .fine → ∀ a ≠ 0, s.watchpoints req.index = a →
        ∀ j < maxWatchpoints, watchSlot (setWp o req s).2.machine j ≠ some a) := by
  unfold setWp
  rw [if_neg (Decidable.not_not.mpr hdisabled)]
  dsimp only
  by_cases hheld : s.watchpoints req.index = 0
  · have hsame : update s.watchpoints req.index 0 = s.watchpoints := by
      rw [← hheld]
      exact update_eq_self _ _
    rw [if_neg (Decidable.not_not.mpr hheld), if_pos rfl, hsame]
    exact ⟨h, fun _ a ha hheld' => absurd (hheld'.symm.trans hheld) ha⟩
  · rw [if_pos hheld]
    obtain ⟨st, m, hclear⟩ : ∃ st m,
        clearWatchpoint (s.watchpoints req.index) o.hw s.machine = (st, m) := ⟨_, _, rfl⟩
    obtain ⟨hread, ⟨hattached, hbps⟩, hcases⟩ := clearWatchpoint_spec h.read h.attached hclear
    have hsofts := softSlot_congr hbps
    have hsoft : AllSoft m := fun i => hbps ▸ h.soft i
    rw [hclear]
    obtain ⟨hst, hslots, hfine⟩ | ⟨hst, j, hj, hslot, hslots⟩ := hcases
    · rw [if_neg hst]
      refine ⟨⟨hattached.trans h.attached, hsoft, hread, hsofts ▸ h.breakpoints,
        hslots ▸ h.watchpoints⟩, fun hwrite a _ hheld' => ?_⟩
      rw [hslots, ← hheld']
      exact hfine hwrite
    · rw [if_pos hst]
      refine ⟨⟨hattached.trans h.attached, hsoft, hread, hsofts ▸ h.breakpoints,
        hslots ▸ h.watchpoints.clear hindex hj hslot⟩, fun _ a _ hheld' => ?_⟩
      rw [hslots, ← hheld']
      exact h.watchpoints.not_mem_clear hj hslot

end

/-! ## Runs -/

/-- Where the command sets something, it is tidy. -/
def TidyCommand (s : LegacyDebugger) (e : SetOutcome × IndexedCommand) : Prop :=
  match e.2 with
  | .setBp body => ∀ req, indexedBreakpoint body = some req → req.index < legacyBreakpoints →
      req.enabled ≠ 0 → Tidy legacyBreakpoints s.breakpoints
        s.machine.dbg.allocBreakpointSlot.isNone req.index req.address
  | .setWp body => ∀ req, indexedWatchpoint body = some req → req.index < legacyWatchpoints →
      req.enabled ≠ 0 → Tidy legacyWatchpoints s.watchpoints
        s.machine.dbg.allocHwSlot.isNone req.index req.address

theorem LegacyDebugger.legacyHandleDebugCommand_inv {s : LegacyDebugger} (h : s.Inv)
    (e : SetOutcome × IndexedCommand) (htidy : TidyCommand s e) :
    (s.legacyHandleDebugCommand e.1 e.2).2.Inv := by
  obtain ⟨o, command⟩ := e
  cases command with
  | setBp body =>
    unfold legacyHandleDebugCommand
    dsimp only
    cases hreq : indexedBreakpoint body with
    | none => exact h
    | some req =>
      dsimp only
      split_ifs with hindex
      · exact h
      · rw [ge_iff_le, Nat.not_le] at hindex
        by_cases hdisabled : req.enabled = 0
        · exact (setBp_of_disabled h hindex hdisabled).1
        · exact setBp_inv_of_enabled h hindex hdisabled (htidy req hreq hindex hdisabled)
  | setWp body =>
    unfold legacyHandleDebugCommand
    dsimp only
    cases hreq : indexedWatchpoint body with
    | none => exact h
    | some req =>
      dsimp only
      split_ifs with hindex
      · exact h
      · rw [ge_iff_le, Nat.not_le] at hindex
        by_cases hdisabled : req.enabled = 0
        · exact (setWp_of_disabled h hindex hdisabled).1
        · exact setWp_inv_of_enabled h hindex hdisabled (htidy req hreq hindex hdisabled)

def allFine : SetOutcome := ⟨.ok, .ok, .fine⟩

/-- What is installed is what the indices hold, and each of it goes away with some index. -/
structure Mirrored (s : LegacyDebugger) : Prop where
  breakpoints : ∀ a, (∃ j < maxBreakpoints, softSlot s.machine j = some a) ↔
    a ≠ 0 ∧ ∃ i < legacyBreakpoints, s.breakpoints i = a
  watchpoints : ∀ a, (∃ j < maxWatchpoints, watchSlot s.machine j = some a) ↔
    a ≠ 0 ∧ ∃ i < legacyWatchpoints, s.watchpoints i = a
  breakpoint_leaves : ∀ a, (∃ j < maxBreakpoints, softSlot s.machine j = some a) →
    ∃ i < legacyBreakpoints, ∀ j < maxBreakpoints,
      softSlot (setBp allFine ⟨i, 0, 0⟩ s).2.machine j ≠ some a
  watchpoint_leaves : ∀ a, (∃ j < maxWatchpoints, watchSlot s.machine j = some a) →
    ∃ i < legacyWatchpoints, ∀ j < maxWatchpoints,
      watchSlot (setWp allFine ⟨i, 0, 0, 0, 0⟩ s).2.machine j ≠ some a

theorem LegacyDebugger.Inv.mirrored {s : LegacyDebugger} (h : s.Inv) : Mirrored s where
  breakpoints := h.breakpoints.exact
  watchpoints := h.watchpoints.exact
  breakpoint_leaves a ha := by
    obtain ⟨hne, i, hi, hheld⟩ := (h.breakpoints.exact a).mp ha
    exact ⟨i, hi, (@setBp_of_disabled _ s h ⟨i, 0, 0⟩ hi rfl).2 rfl a hne hheld⟩
  watchpoint_leaves a ha := by
    obtain ⟨hne, i, hi, hheld⟩ := (h.watchpoints.exact a).mp ha
    exact ⟨i, hi, (@setWp_of_disabled _ s h ⟨i, 0, 0, 0, 0⟩ hi rfl).2 rfl a hne hheld⟩

/-- In every run in which no command sets address 0 or an address under an index that holds
another, the indices mirror what the debugger has installed. -/
theorem mirrored_of_tidy_run {t : Target} {es : List (SetOutcome × IndexedCommand)}
    {s : LegacyDebugger}
    (h : Run (fun s e => some (s.legacyHandleDebugCommand e.1 e.2).2) TidyCommand
      (attach t) es s) : Mirrored s := by
  refine Inv.mirrored (h.invariant (P := Inv) ?_
    (inv_attach t))
  rintro s e s' hs htidy ⟨⟩
  exact legacyHandleDebugCommand_inv hs e htidy

def setFirst (page : UInt8) : List UInt8 :=
  [0, 0, 0, 0, 1, 0, 0, 0, 0, page, 0, 0, 0, 0, 0, 0]

theorem mirrored_of_tidy_run_one :
    Mirrored ((attach (.idle [1])).legacyHandleDebugCommand allFine
      (.setBp (setFirst 16))).2 := by
  refine mirrored_of_tidy_run (.cons (a := (allFine, .setBp (setFirst 16))) ?_ rfl (.nil _))
  rintro req ⟨⟩ - -
  exact .inl ⟨by decide, .inl rfl⟩

def overwritten : LegacyDebugger :=
  ((((attach (.idle [1])).legacyHandleDebugCommand allFine
    (.setBp (setFirst 16))).2).legacyHandleDebugCommand allFine (.setBp (setFirst 32))).2

theorem overwritten_orphans : ¬Mirrored overwritten := by
  intro h
  have hthere : ∃ j < maxBreakpoints, softSlot overwritten.machine j = some 4096 := by
    decide
  obtain ⟨-, hheld⟩ := (h.breakpoints 4096).mp hthere
  revert hheld
  decide

end MemDbg.Legacy
