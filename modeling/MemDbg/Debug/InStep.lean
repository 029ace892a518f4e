import MemDbg.Debug.Tracked

/-!
# The program under breakpoints

A thread that is debugged should execute what it would execute by itself.  By itself it
follows its program from the registers it starts with; under the debugger it either is
where it would be, or has executed the byte of a breakpoint instead of its next
instruction and sits one past it.
-/

namespace MemDbg.Debug

open List Lib Function

section

variable (prog : Program) (start : Nat → Regs)

/-! ## The program by itself -/

def reference (lwp : Nat) : Nat → Regs
  | 0 => start lwp
  | n + 1 => prog lwp n (reference lwp n)

/-- The instruction pointer is a register of 64 bits. -/
def Wide : Prop := (∀ lwp, (start lwp).rip < 2 ^ 64) ∧ ∀ lwp n r, (prog lwp n r).rip < 2 ^ 64

/-- A thread of the target has executed what it would have executed by itself, and is
where it would be, or one past a breakpoint that lies there. -/
structure InStep (t : Target) (lwp : Nat) : Prop where
  executed : t.executed lwp =
    (List.range (t.executed lwp).length).map fun n => (reference prog start lwp n).rip
  awake : t.trapped lwp = none → t.regs lwp = reference prog start lwp (t.executed lwp).length
  seated : ∀ a, t.trapped lwp = some a →
    (reference prog start lwp (t.executed lwp).length).rip = a ∧
      t.regs lwp =
        { reference prog start lwp (t.executed lwp).length with rip := wrap64 (a + 1) }

variable {prog start}

theorem Wide.reference_lt (hwide : Wide prog start) (lwp : Nat) :
    ∀ n, (reference prog start lwp n).rip < 2 ^ 64
  | 0 => hwide.1 lwp
  | n + 1 => hwide.2 lwp n _

section

variable {t t' : Target} {lwp : Nat}

theorem InStep.exec (h : InStep prog start t lwp) (l : Nat) :
    InStep prog start (t.exec prog l) lwp := by
  rw [Target.exec]
  dsimp only
  split_ifs with hsome hmem
  · exact h
  · rcases eq_or_ne lwp l with rfl | hne
    · have hnone : t.trapped lwp = none := by simpa using hsome
      refine ⟨h.executed, fun htrapped => ?_, fun a htrapped => ?_⟩
      · dsimp only at htrapped
        rw [update_self] at htrapped
        cases htrapped
      · dsimp only at htrapped ⊢
        rw [update_self] at htrapped ⊢
        cases htrapped
        rw [h.awake hnone]
        exact ⟨rfl, rfl⟩
    · refine ⟨h.executed, fun htrapped => ?_, fun a htrapped => ?_⟩
      all_goals
        dsimp only at htrapped ⊢
        rw [update_of_ne hne] at htrapped ⊢
      · exact h.awake htrapped
      · exact h.seated a htrapped
  · rcases eq_or_ne lwp l with rfl | hne
    · have hnone : t.trapped lwp = none := by simpa using hsome
      have hregs := h.awake hnone
      have hexecuted := h.executed
      refine ⟨?_, fun _ => ?_, fun a htrapped => ?_⟩
      · dsimp only
        rw [update_self, length_append, length_singleton, range_succ,
          map_append, ← hexecuted, hregs, map_singleton]
      · dsimp only
        rw [update_self, update_self, length_append, length_singleton, hregs,
          reference]
      · rw [hnone] at htrapped
        cases htrapped
    · refine ⟨?_, fun htrapped => ?_, fun a htrapped => ?_⟩
      all_goals
        dsimp only
        rw [update_of_ne hne]
      · exact h.executed
      · rw [update_of_ne hne]
        exact h.awake htrapped
      · rw [update_of_ne hne]
        exact h.seated a htrapped

theorem InStep.execAll (h : InStep prog start t lwp) (runs : List Nat) :
    InStep prog start (t.execAll prog runs) lwp :=
  List.foldlRecOn (motive := fun t' : Target => InStep prog start t' lwp) runs
    (Target.exec prog) h fun _ ht l _ => ht.exec l

theorem Target.execAll_trapped (t : Target) (runs : List Nat) {lwp a : Nat}
    (h : (t.execAll prog runs).trapped lwp = some a) :
    t.trapped lwp = some a ∨ t.mem a ≠ t.own a := by
  refine List.foldlRecOn (motive := fun t' : Target => (t'.mem = t.mem ∧ t'.own = t.own) ∧
    (t'.trapped lwp = some a → t.trapped lwp = some a ∨ t.mem a ≠ t.own a)) runs
    (Target.exec prog) ⟨⟨rfl, rfl⟩, .inl⟩ (fun t' ht l _ => ?_) |>.2 h
  rw [Target.exec]
  dsimp only
  split_ifs with _ hmem
  · exact ht
  · refine ⟨ht.1, fun htrapped => ?_⟩
    dsimp only at htrapped
    rcases eq_or_ne lwp l with rfl | hne
    · rw [update_self] at htrapped
      cases htrapped
      rw [ht.1.1, ht.1.2] at hmem
      exact .inr hmem
    · rw [update_of_ne hne] at htrapped
      exact ht.2 htrapped
  · exact ht

theorem Target.execAll_lwps (t : Target) (runs : List Nat) :
    (t.execAll prog runs).lwps = t.lwps := by
  refine List.foldlRecOn (motive := fun t' : Target => t'.lwps = t.lwps) runs
    (Target.exec prog) rfl fun t' ht l _ => ?_
  rw [Target.exec]
  dsimp only
  split_ifs
  all_goals exact ht

/-! ## What leaves the threads alone -/

structure Still (t t' : Target) : Prop where
  lwps : t'.lwps = t.lwps
  regs : t'.regs = t.regs
  executed : t'.executed = t.executed
  trapped : t'.trapped = t.trapped

theorem Still.refl (t : Target) : Still t t := ⟨rfl, rfl, rfl, rfl⟩

theorem Still.trans {t'' : Target} (h : Still t t') (h' : Still t' t'') : Still t t'' :=
  ⟨h'.lwps.trans h.lwps, h'.regs.trans h.regs, h'.executed.trans h.executed,
    h'.trapped.trans h.trapped⟩

theorem InStep.of_still (h : InStep prog start t lwp) (hstill : Still t t') :
    InStep prog start t' lwp := by
  obtain ⟨-, hregs, hexecuted, htrapped⟩ := hstill
  refine ⟨?_, ?_, ?_⟩
  · rw [hexecuted]
    exact h.executed
  · rw [hexecuted, htrapped, hregs]
    exact h.awake
  · rw [hexecuted, htrapped, hregs]
    exact h.seated

end

end

section

variable (m : Machine)

theorem installSwBreakpoint_still (read write : Status) (i : Nat) :
    Still m.target (installSwBreakpoint read write i m).2.target := by
  rw [installSwBreakpoint]
  split_ifs
  all_goals exact ⟨rfl, rfl, rfl, rfl⟩

theorem uninstallSwBreakpoint_still (write : Status) (i : Nat) :
    Still m.target (uninstallSwBreakpoint write i m).2.target := by
  rw [uninstallSwBreakpoint]
  split_ifs
  all_goals exact ⟨rfl, rfl, rfl, rfl⟩

theorem applyDbregsToAll_still (allowPartial : Bool) (hw : HwOutcome) :
    Still m.target (applyDbregsToAll allowPartial hw m).2.target := by
  obtain ⟨dr, heq⟩ := applyDbregsToAll_eq allowPartial hw m
  rw [heq]
  exact ⟨rfl, rfl, rfl, rfl⟩

theorem syncHardwareDbregs_still (allowPartial : Bool) (hw : HwOutcome) :
    Still m.target (syncHardwareDbregs allowPartial hw m).2.target := by
  obtain ⟨dbregs, valid, dr, heq⟩ := syncHardwareDbregs_eq allowPartial hw m
  rw [heq]
  exact ⟨rfl, rfl, rfl, rfl⟩

theorem setHardwareBreakpoint_still (address : Nat) (hw : HwOutcome) :
    Still m.target (setHardwareBreakpoint address hw m).2.target := by
  rw [setHardwareBreakpoint]
  split
  · exact Still.refl _
  · rename_i slot _
    have hsync := syncHardwareDbregs_still (m.setWp slot (fakeWatchpoint address slot)) true hw
    split
    · rename_i m' hm'
      rwa [hm'] at hsync
    · rename_i st m' _ hm'
      rwa [hm'] at hsync

theorem clearHardwareSlot_still (slot : Nat) (hw : HwOutcome) :
    Still m.target (clearHardwareSlot slot hw m).2.target := by
  have hsync := syncHardwareDbregs_still (m.setWp slot Watchpoint.zero) false hw
  rw [clearHardwareSlot]
  split
  · rename_i m' hm'
    rwa [hm'] at hsync
  · rename_i st m' _ hm'
    rwa [hm'] at hsync

theorem clearHardwareStatus_still (get set : Status) (lwp : Nat) :
    Still m.target (clearHardwareStatus get set lwp m).target := by
  rw [clearHardwareStatus]
  split_ifs
  all_goals exact ⟨rfl, rfl, rfl, rfl⟩

theorem setBreakpointCond_still (address kind condReg condOp : Nat) (condValue : Int)
    (o : SetOutcome) :
    Still m.target (setBreakpointCond address kind condReg condOp condValue o m).2.target := by
  rw [setBreakpointCond]
  split_ifs
  · exact Still.refl _
  · exact Still.refl _
  · exact Still.refl _
  · exact Still.refl _
  · split
    · exact Still.refl _
    · rename_i slot _
      cases bpKindOf kind with
      | none => exact Still.refl _
      | some k =>
        cases k with
        | software =>
          dsimp only
          split_ifs
          all_goals exact installSwBreakpoint_still (m.setBp slot _) o.read o.write slot
        | hardware =>
          dsimp only
          split_ifs
          all_goals exact setHardwareBreakpoint_still (m.setBp slot _) address o.hw

theorem clearBreakpoint_still (address : Nat) (write : Status) (hw : HwOutcome) :
    Still m.target (clearBreakpoint address write hw m).2.target := by
  rw [clearBreakpoint]
  split_ifs
  · exact Still.refl _
  · split
    · exact Still.refl _
    · rename_i slot _
      cases (m.dbg.breakpoints slot).kind with
      | software =>
        dsimp only
        split_ifs
        all_goals exact uninstallSwBreakpoint_still m write slot
      | hardware =>
        dsimp only
        split
        · split_ifs
          all_goals exact clearHardwareSlot_still m _ hw
        · exact Still.refl _

theorem clearEntry_still (write : Nat → Status) (i : Nat) :
    Still m.target (clearEntry write m i).target := by
  rw [clearEntry]
  split
  · exact Still.refl _
  · cases (m.dbg.breakpoints i).kind with
    | software => exact uninstallSwBreakpoint_still m (write i) i
    | hardware =>
      dsimp only
      split
      · exact Still.refl _
      · exact Still.refl _

theorem clearAllBreakpoints_still (write : Nat → Status) (hw : HwOutcome) :
    Still m.target (clearAllBreakpoints write hw m).2.target := by
  have hfold := List.foldlRecOn (motive := fun m' : Machine => Still m.target m'.target)
    (List.range maxBreakpoints) (clearEntry write) (Still.refl _)
    fun m' hm' i _ => hm'.trans (clearEntry_still m' write i)
  rw [clearAllBreakpoints]
  dsimp only
  split_ifs
  · exact Still.refl _
  · exact hfold.trans (syncHardwareDbregs_still _ false hw)
  · exact hfold

theorem setWatchpoint_still (address length type : Nat) (hw : HwOutcome) :
    Still m.target (setWatchpoint address length type hw m).2.target := by
  rw [setWatchpoint]
  split_ifs
  · exact Still.refl _
  · exact Still.refl _
  · exact Still.refl _
  · exact Still.refl _
  · split
    · exact Still.refl _
    · rename_i slot _
      have hsync := syncHardwareDbregs_still (m.setWp slot ⟨address, length, type, slot, true⟩)
        true hw
      split
      · rename_i m' hm'
        rwa [hm'] at hsync
      · rename_i st m' _ hm'
        rwa [hm'] at hsync

theorem clearWatchpoint_still (address : Nat) (hw : HwOutcome) :
    Still m.target (clearWatchpoint address hw m).2.target := by
  rw [clearWatchpoint]
  split_ifs
  · exact Still.refl _
  · split
    · exact Still.refl _
    · exact clearHardwareSlot_still m _ hw

theorem clearAllWatchpoints_still (hw : HwOutcome) :
    Still m.target (clearAllWatchpoints hw m).2.target := by
  have hsync := syncHardwareDbregs_still
    { m with dbg := { m.dbg with watchpoints := fun _ => Watchpoint.zero } } false hw
  rw [clearAllWatchpoints]
  split_ifs
  · exact Still.refl _
  · split
    · rename_i m' hm'
      rwa [hm'] at hsync
    · rename_i st m' _ hm'
      rwa [hm'] at hsync
  · exact Still.refl _

theorem rearm_still (hw : HwOutcome) : Still m.target (rearm hw m).target := by
  rw [rearm]
  split_ifs
  · exact syncHardwareDbregs_still m true hw
  · exact Still.refl _

theorem clearDbregs_still (hw : HwOutcome) : Still m.target (clearDbregs hw m).target := by
  rw [clearDbregs]
  split_ifs
  · exact applyDbregsToAll_still { m with dbg := { m.dbg with dbregs := fun _ => 0 } } false hw
  · exact Still.refl _

end

/-! ## Where threads sit -/

def Machine.SoftAt (m : Machine) (a : Nat) : Prop :=
  ∃ i, (m.dbg.breakpoints i).IsSoft ∧ (m.dbg.breakpoints i).address = a

def Machine.Unseated (m : Machine) : Prop :=
  ∀ lwp ∈ m.target.lwps, m.target.trapped lwp = none

section

variable {m m' : Machine} {a : Nat}

theorem Machine.SoftAt.of_patches (h : m.SoftAt a) (heq : m'.patches = m.patches) :
    m'.SoftAt a := by
  have hbps : m'.dbg.breakpoints = m.dbg.breakpoints := congrArg Patches.bps heq
  rw [SoftAt, hbps]
  exact h

theorem Machine.SoftAt.of_ne (h : m.SoftAt a) (slot : Nat)
    (hslot : (m.dbg.breakpoints slot).IsSoft → (m.dbg.breakpoints slot).address ≠ a)
    (hsame : ∀ j, j ≠ slot → m'.dbg.breakpoints j = m.dbg.breakpoints j) : m'.SoftAt a := by
  obtain ⟨i, hsoft, haddress⟩ := h
  have hne : i ≠ slot := by
    rintro rfl
    exact hslot hsoft haddress
  refine ⟨i, ?_⟩
  rw [hsame i hne]
  exact ⟨hsoft, haddress⟩

theorem breakpoints_installSwBreakpoint (read write : Status) (i : Nat) (m : Machine) :
    ∃ original installed, (installSwBreakpoint read write i m).2.dbg.breakpoints =
      update m.dbg.breakpoints i
        { m.dbg.breakpoints i with originalByte := original, installed := installed } := by
  rw [installSwBreakpoint]
  split_ifs
  · exact ⟨_, _, (update_eq_self i m.dbg.breakpoints).symm⟩
  · exact ⟨_, _, (update_eq_self i m.dbg.breakpoints).symm⟩
  · exact ⟨_, _, rfl⟩
  · exact ⟨_, true, update_idem ..⟩

theorem Machine.SoftAt.install (h : m.SoftAt a) (read write : Status) (i : Nat) :
    (installSwBreakpoint read write i m).2.SoftAt a := by
  obtain ⟨original, installed, heq⟩ := breakpoints_installSwBreakpoint read write i m
  obtain ⟨j, hsoft, haddress⟩ := h
  refine ⟨j, ?_⟩
  rw [heq]
  rcases eq_or_ne j i with rfl | hne
  · rw [update_self]
    exact ⟨hsoft, haddress⟩
  · rw [update_of_ne hne]
    exact ⟨hsoft, haddress⟩

theorem Machine.SoftAt.uninstall (h : m.SoftAt a) (write : Status) (i : Nat) :
    (uninstallSwBreakpoint write i m).2.SoftAt a := by
  obtain ⟨installed, heq⟩ := breakpoints_uninstallSwBreakpoint write i m
  obtain ⟨j, hsoft, haddress⟩ := h
  refine ⟨j, ?_⟩
  rw [heq]
  rcases eq_or_ne j i with rfl | hne
  · rw [update_self]
    exact ⟨hsoft, haddress⟩
  · rw [update_of_ne hne]
    exact ⟨hsoft, haddress⟩

theorem Machine.SoftAt.setBreakpointCond (h : m.SoftAt a) (address kind condReg condOp : Nat)
    (condValue : Int) (o : SetOutcome) :
    (setBreakpointCond address kind condReg condOp condValue o m).2.SoftAt a := by
  rw [Debug.setBreakpointCond]
  split_ifs
  · exact h
  · exact h
  · exact h
  · exact h
  · split
    · exact h
    · rename_i slot halloc
      have hfree := find?_some halloc
      rw [Bool.not_eq_true'] at hfree
      refine h.of_ne slot (fun hsoft => ?_) fun j hne => ?_
      · rw [hsoft.1] at hfree
        cases hfree
      · have hset (bp : Breakpoint) (m' : Machine)
            (hm' : m'.dbg.breakpoints j = m.dbg.breakpoints j) :
            (m'.setBp slot bp).dbg.breakpoints j = m.dbg.breakpoints j :=
          (update_of_ne hne ..).trans hm'
        have hlast (p : Status × Machine) (hp : p.2.dbg.breakpoints j = m.dbg.breakpoints j) :
            (if p.1 = .ok then p.2 else p.2.setBp slot Breakpoint.zero).dbg.breakpoints j =
              m.dbg.breakpoints j := by
          split_ifs
          · exact hp
          · exact hset _ _ hp
        refine hlast _ ?_
        cases bpKindOf kind with
        | none => rfl
        | some k =>
          cases k with
          | software =>
            obtain ⟨original, installed, heq⟩ := breakpoints_installSwBreakpoint o.read
              o.write slot (m.setBp slot
                ⟨address, .software, 0, false, true, condReg, condOp, condValue⟩)
            rw [heq, update_of_ne hne]
            exact hset _ m rfl
          | hardware =>
            have hbps := congrArg Patches.bps (patches_setHardwareBreakpoint address o.hw
              (m.setBp slot ⟨address, .hardware, 0, false, true, condReg, condOp, condValue⟩))
            dsimp only [Machine.patches] at hbps ⊢
            rw [hbps]
            exact hset _ m rfl

theorem Dbg.findBreakpointSlot_address {g : Dbg} {i : Nat}
    (h : g.findBreakpointSlot a = some i) : (g.breakpoints i).address = a := by
  have hfound := find?_some h
  rw [Bool.and_eq_true, beq_iff_eq] at hfound
  exact hfound.2

theorem Machine.SoftAt.clearBreakpoint (h : m.SoftAt a) {address : Nat} (hne : address ≠ a)
    (write : Status) (hw : HwOutcome) : (clearBreakpoint address write hw m).2.SoftAt a := by
  rw [Debug.clearBreakpoint]
  split_ifs
  · exact h
  · split
    · exact h
    · rename_i slot hfind
      have haddress := Dbg.findBreakpointSlot_address hfind
      have hlast (p : Status × Machine)
          (hp : ∀ j, j ≠ slot → p.2.dbg.breakpoints j = m.dbg.breakpoints j) :
          (if p.1 = .ok then p.2.setBp slot Breakpoint.zero else p.2).SoftAt a := by
        refine h.of_ne slot (fun _ => ?_) fun j hj => ?_
        · rw [haddress]
          exact hne
        · split_ifs
          · exact (update_of_ne hj ..).trans (hp j hj)
          · exact hp j hj
      refine hlast _ fun j hj => ?_
      cases (m.dbg.breakpoints slot).kind with
      | software =>
        obtain ⟨installed, heq⟩ := breakpoints_uninstallSwBreakpoint write slot m
        rw [heq, update_of_ne hj]
      | hardware =>
        dsimp only
        split
        · rename_i hwSlot _
          have hbps := congrArg Patches.bps (patches_clearHardwareSlot hwSlot hw m)
          dsimp only [Machine.patches] at hbps
          rw [hbps]
        · rfl

end

/-! ## Threads and breakpoints together -/

section

variable (prog : Program) (start : Nat → Regs)

structure Following (m : Machine) : Prop where
  code : m.patches.Inv
  inStep : ∀ lwp ∈ m.target.lwps, InStep prog start m.target lwp
  seat : ∀ lwp ∈ m.target.lwps, ∀ a, m.target.trapped lwp = some a → m.SoftAt a

variable {prog start}

namespace Following

variable {m m' : Machine}

theorem of_still (h : Following prog start m) (hcode : m'.patches.Inv)
    (hstill : Still m.target m'.target)
    (hseat : ∀ lwp ∈ m.target.lwps, ∀ a, m.target.trapped lwp = some a → m.SoftAt a →
      m'.SoftAt a) : Following prog start m' where
  code := hcode
  inStep lwp hlwp := by
    rw [hstill.lwps] at hlwp
    exact (h.inStep lwp hlwp).of_still hstill
  seat lwp hlwp a htrapped := by
    rw [hstill.lwps] at hlwp
    rw [hstill.trapped] at htrapped
    exact hseat lwp hlwp a htrapped (h.seat lwp hlwp a htrapped)

theorem of_patches (h : Following prog start m) (hstill : Still m.target m'.target)
    (heq : m'.patches = m.patches) : Following prog start m' := by
  refine h.of_still ?_ hstill fun _ _ _ _ hat => hat.of_patches heq
  rw [heq]
  exact h.code

theorem of_unseated (h : Following prog start m) (hcode : m'.patches.Inv)
    (hstill : Still m.target m'.target) (hunseated : m.Unseated) : Following prog start m' := by
  refine h.of_still hcode hstill fun lwp hlwp a htrapped _ => ?_
  rw [hunseated lwp hlwp] at htrapped
  cases htrapped

theorem rip_of_trapped (hwide : Wide prog start) (h : Following prog start m) {lwp a : Nat}
    (hlwp : lwp ∈ m.target.lwps) (htrapped : m.target.trapped lwp = some a) :
    sub64 (m.target.regs lwp).rip 1 = a := by
  obtain ⟨ha, hregs⟩ := (h.inStep lwp hlwp).seated a htrapped
  have hlt := hwide.reference_lt lwp (m.target.executed lwp).length
  rw [hregs]
  unfold sub64 wrap64
  dsimp only
  omega

theorem slotBehind_of_trapped (hwide : Wide prog start) (h : Following prog start m)
    {lwp : Nat} (hlwp : lwp ∈ m.target.lwps) (htrapped : m.target.trapped lwp ≠ none) :
    ∃ slot, m.slotBehind lwp = some slot ∧ (m.dbg.breakpoints slot).kind = .software := by
  obtain ⟨a, ha⟩ := Option.ne_none_iff_exists'.1 htrapped
  obtain ⟨i, hsoft, haddress⟩ := h.seat lwp hlwp a ha
  rw [Machine.slotBehind, h.rip_of_trapped hwide hlwp ha]
  cases hfind : m.dbg.findBreakpointSlot a with
  | none =>
    have hnot := find?_eq_none.1 hfind i (mem_range.2 (h.code.size i hsoft.1))
    rw [hsoft.1, haddress, beq_self_eq_true] at hnot
    exact absurd rfl hnot
  | some slot =>
    have hactive := (Dbg.findBreakpointSlot_active hfind).2
    have hslot := Dbg.findBreakpointSlot_address hfind
    cases h.code.distinct slot i hactive hsoft.1 (hslot.trans haddress.symm)
    exact ⟨i, rfl, hsoft.2⟩

theorem execAll (h : Following prog start m) (runs : List Nat) :
    Following prog start { m with target := m.target.execAll prog runs } where
  code := by
    obtain ⟨hmem, hown⟩ := Target.execAll_code prog m.target runs
    dsimp only [Machine.patches]
    rw [hmem, hown]
    exact h.code
  inStep lwp hlwp := by
    rw [Target.execAll_lwps] at hlwp
    exact (h.inStep lwp hlwp).execAll runs
  seat lwp hlwp a htrapped := by
    rw [Target.execAll_lwps] at hlwp
    rcases m.target.execAll_trapped runs htrapped with hbefore | hchanged
    · exact h.seat lwp hlwp a hbefore
    · obtain ⟨i, -, hsoft, -, haddress, -⟩ := h.code.held a hchanged
      exact ⟨i, hsoft, haddress⟩

theorem resume (h : Following prog start m) (hunseated : m.Unseated) :
    Following prog start { m with target := m.target.resume } where
  code := h.code
  inStep lwp hlwp := by
    have hin := h.inStep lwp hlwp
    exact ⟨hin.executed, fun _ => hin.awake (hunseated lwp hlwp), fun a ha => nomatch ha⟩
  seat lwp _ a ha := nomatch ha

theorem ptStep (h : Following prog start m) (hunseated : m.Unseated) (runs : List Nat) :
    Following prog start { m with target := m.target.ptStep prog runs } :=
  ((h.resume hunseated).execAll runs).of_patches ⟨rfl, rfl, rfl, rfl⟩ rfl

theorem advance (h : Following prog start m) (runs : List Nat) (halts : Bool) :
    Following prog start { m with target := m.target.advance prog runs halts } := by
  rw [Target.advance]
  split_ifs
  · exact (h.execAll runs).of_patches ⟨rfl, rfl, rfl, rfl⟩ rfl
  · exact h

theorem install (h : Following prog start m) {i : Nat} (hsoft : (m.dbg.breakpoints i).IsSoft)
    (read write : Status) : Following prog start (installSwBreakpoint read write i m).2 :=
  h.of_still (installSwBreakpoint_inv h.code hsoft read write).1
    (installSwBreakpoint_still m read write i) fun _ _ _ _ hat => hat.install read write i

theorem uninstall (h : Following prog start m) {i : Nat} (hsoft : (m.dbg.breakpoints i).IsSoft)
    (write : Status) : Following prog start (uninstallSwBreakpoint write i m).2 :=
  h.of_still (uninstallSwBreakpoint_inv h.code hsoft write).1
    (uninstallSwBreakpoint_still m write i) fun _ _ _ _ hat => hat.uninstall write i

theorem moveBack (hwide : Wide prog start) (h : Following prog start m) {lwp : Nat}
    (hsits : lwp ∈ m.target.lwps → m.target.trapped lwp ≠ none) :
    Following prog start (m.moveBack lwp) where
  code := h.code
  inStep l hl := by
    have hin := h.inStep l hl
    rcases eq_or_ne l lwp with rfl | hne
    · obtain ⟨a, ha⟩ := Option.ne_none_iff_exists'.1 (hsits hl)
      obtain ⟨hrip, hregs⟩ := hin.seated a ha
      have hback := h.rip_of_trapped hwide hl ha
      refine ⟨hin.executed, fun _ => ?_, fun b hb => ?_⟩
      · dsimp only [Machine.moveBack]
        rw [update_self, hback, hregs, ← hrip]
      · dsimp only [Machine.moveBack] at hb
        rw [update_self] at hb
        cases hb
    · refine ⟨hin.executed, fun htrapped => ?_, fun b hb => ?_⟩
      all_goals
        dsimp only [Machine.moveBack] at *
        rw [update_of_ne hne] at *
      · exact hin.awake htrapped
      · exact hin.seated b hb
  seat l hl a ha := by
    dsimp only [Machine.moveBack] at ha
    rcases eq_or_ne l lwp with rfl | hne
    · rw [update_self] at ha
      cases ha
    · rw [update_of_ne hne] at ha
      exact h.seat l hl a ha

end Following

end

end MemDbg.Debug
