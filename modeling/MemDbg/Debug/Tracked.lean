import MemDbg.Debug.Session

/-!
# The bytes under software breakpoints

Every byte of the target that the debugger has changed is remembered by an active
entry of the breakpoint table.  The table, the memory and the program's own bytes are
all that matters here; what one entry does to them is said once, and the operations
are made of such steps.
-/

namespace MemDbg.Debug

open List Lib Function

/-! ## The patched code -/

structure Patches where
  attached : Bool
  bps : Nat → Breakpoint
  mem : Nat → UInt8
  own : Nat → UInt8

def Machine.patches (m : Machine) : Patches :=
  ⟨m.dbg.attached, m.dbg.breakpoints, m.target.mem, m.target.own⟩

def Breakpoint.IsSoft (bp : Breakpoint) : Prop := bp.active = true ∧ bp.kind = .software

namespace Patches

/-- Every changed byte is held by an entry that is installed and knows the program's
byte, and no two active entries have the same address. -/
structure Tracked (p : Patches) : Prop where
  held : ∀ a, p.mem a ≠ p.own a → ∃ i < maxBreakpoints, (p.bps i).IsSoft ∧
    (p.bps i).installed = true ∧ (p.bps i).address = a ∧ (p.bps i).originalByte = p.own a
  distinct : ∀ i j, (p.bps i).active = true → (p.bps j).active = true →
    (p.bps i).address = (p.bps j).address → i = j

structure Inv (p : Patches) : Prop extends Tracked p where
  faithful : ∀ i, (p.bps i).IsSoft → (p.bps i).installed = true →
    (p.bps i).originalByte = p.own (p.bps i).address
  size : ∀ i, (p.bps i).active = true → i < maxBreakpoints
  session : ∀ i, (p.bps i).active = true → p.attached = true

def setBp (p : Patches) (i : Nat) (bp : Breakpoint) : Patches :=
  { p with bps := update p.bps i bp }

def poke (p : Patches) (a : Nat) (b : UInt8) : Patches := { p with mem := update p.mem a b }

variable {p : Patches} {i : Nat} {bp : Breakpoint}

theorem Inv.mem_eq_own (h : p.Inv) (hactive : (p.bps i).active = true)
    (hinstalled : (p.bps i).installed = false) :
    p.mem (p.bps i).address = p.own (p.bps i).address := by
  by_contra hne
  obtain ⟨j, -, hsoft, hj, haddress, -⟩ := h.held _ hne
  cases h.distinct j i hsoft.1 hactive haddress
  rw [hinstalled] at hj
  cases hj

theorem Inv.setBp (h : p.Inv) (hi : i < maxBreakpoints)
    (hfree : (p.bps i).IsSoft → (p.bps i).installed = true →
      p.mem (p.bps i).address = p.own (p.bps i).address)
    (hbp : bp.IsSoft → bp.installed = false)
    (hfresh : bp.active = true → ∀ j, j ≠ i → (p.bps j).active = true →
      (p.bps j).address ≠ bp.address) (hsession : bp.active = true → p.attached = true) :
    (p.setBp i bp).Inv where
  held a ha := by
    obtain ⟨j, hlt, hsoft, hinstalled, haddress, horiginal⟩ := h.held a ha
    have hne : j ≠ i := by
      rintro rfl
      exact ha (haddress ▸ hfree hsoft hinstalled)
    refine ⟨j, hlt, ?_⟩
    dsimp only [Patches.setBp]
    rw [update_of_ne hne]
    exact ⟨hsoft, hinstalled, haddress, horiginal⟩
  distinct j k hj hk haddress := by
    dsimp only [Patches.setBp] at hj hk haddress
    rcases eq_or_ne j i with rfl | hji
    · rcases eq_or_ne k j with rfl | hki
      · rfl
      · rw [update_self] at hj haddress
        rw [update_of_ne hki] at hk haddress
        exact absurd haddress.symm (hfresh hj k hki hk)
    · rw [update_of_ne hji] at hj haddress
      rcases eq_or_ne k i with rfl | hki
      · rw [update_self] at hk haddress
        exact absurd haddress (hfresh hk j hji hj)
      · rw [update_of_ne hki] at hk haddress
        exact h.distinct j k hj hk haddress
  faithful j hsoft hinstalled := by
    dsimp only [Patches.setBp] at hsoft hinstalled ⊢
    rcases eq_or_ne j i with rfl | hne
    · rw [update_self] at hsoft hinstalled
      rw [hbp hsoft] at hinstalled
      cases hinstalled
    · rw [update_of_ne hne] at hsoft hinstalled ⊢
      exact h.faithful j hsoft hinstalled
  size j hj := by
    dsimp only [Patches.setBp] at hj
    rcases eq_or_ne j i with rfl | hne
    · exact hi
    · rw [update_of_ne hne] at hj
      exact h.size j hj
  session j hj := by
    dsimp only [Patches.setBp] at hj
    rcases eq_or_ne j i with rfl | hne
    · rw [update_self] at hj
      exact hsession hj
    · rw [update_of_ne hne] at hj
      exact h.session j hj

theorem Inv.install (h : p.Inv) (hsoft : (p.bps i).IsSoft) (b : UInt8)
    (hinstalled : (p.bps i).installed = false) :
    ((p.setBp i { p.bps i with
      originalByte := p.mem (p.bps i).address, installed := true }).poke (p.bps i).address
        b).Inv where
  held a ha := by
    have hown := h.mem_eq_own hsoft.1 hinstalled
    rcases eq_or_ne a (p.bps i).address with rfl | hne
    · refine ⟨i, h.size i hsoft.1, ?_⟩
      dsimp only [Patches.setBp, poke]
      rw [update_self]
      exact ⟨hsoft, rfl, rfl, hown⟩
    · dsimp only [Patches.setBp, poke] at ha
      rw [update_of_ne hne] at ha
      obtain ⟨j, hlt, hsoft', hinstalled', haddress, horiginal⟩ := h.held a ha
      have hji : j ≠ i := by
        rintro rfl
        exact hne haddress.symm
      refine ⟨j, hlt, ?_⟩
      dsimp only [Patches.setBp, poke]
      rw [update_of_ne hji]
      exact ⟨hsoft', hinstalled', haddress, horiginal⟩
  distinct j k hj hk haddress := by
    have hfields (j : Nat) : (update p.bps i { p.bps i with
        originalByte := p.mem (p.bps i).address, installed := true } j).active = (p.bps j).active ∧
        (update p.bps i { p.bps i with originalByte := p.mem (p.bps i).address
                                       installed := true } j).address = (p.bps j).address := by
      rcases eq_or_ne j i with rfl | hne
      · rw [update_self]
        exact ⟨rfl, rfl⟩
      · rw [update_of_ne hne]
        exact ⟨rfl, rfl⟩
    dsimp only [Patches.setBp, poke] at hj hk haddress
    rw [(hfields j).1] at hj
    rw [(hfields k).1] at hk
    rw [(hfields j).2, (hfields k).2] at haddress
    exact h.distinct j k hj hk haddress
  faithful j hj hinstalled' := by
    dsimp only [Patches.setBp, poke] at hj hinstalled' ⊢
    rcases eq_or_ne j i with rfl | hne
    · rw [update_self]
      exact h.mem_eq_own hsoft.1 hinstalled
    · rw [update_of_ne hne] at hj hinstalled' ⊢
      exact h.faithful j hj hinstalled'
  size j hj := by
    dsimp only [Patches.setBp, poke] at hj
    rcases eq_or_ne j i with rfl | hne
    · exact h.size j hsoft.1
    · rw [update_of_ne hne] at hj
      exact h.size j hj
  session _ _ := h.session i hsoft.1

theorem Inv.restore (h : p.Inv) (a : Nat) : (p.poke a (p.own a)).Inv where
  held b hb := by
    dsimp only [poke] at hb
    rcases eq_or_ne b a with rfl | hne
    · rw [update_self] at hb
      exact absurd rfl hb
    · rw [update_of_ne hne] at hb
      exact h.held b hb
  distinct := h.distinct
  faithful := h.faithful
  size := h.size
  session := h.session

theorem Inv.of_eq (hmem : p.mem = p.own) (hbps : ∀ i, (p.bps i).active = false) : p.Inv where
  held a ha := absurd (congrFun hmem a) ha
  distinct i j hi := by
    rw [hbps i] at hi
    cases hi
  faithful i hi := by
    have hactive := hi.1
    rw [hbps i] at hactive
    cases hactive
  size i hi := by
    rw [hbps i] at hi
    cases hi
  session i hi := by
    rw [hbps i] at hi
    cases hi

end Patches

/-! ## What the operations are made of -/

@[simp]
theorem Machine.patches_withDbregs (m : Machine) (dbregs : Dbregs) (valid : Bool)
    (dr : Nat → Dbregs) : (m.withDbregs dbregs valid dr).patches = m.patches := rfl

@[simp]
theorem patches_applyDbregsToAll (allowPartial : Bool) (hw : HwOutcome) (m : Machine) :
    (applyDbregsToAll allowPartial hw m).2.patches = m.patches := by
  obtain ⟨dr, heq⟩ := applyDbregsToAll_eq allowPartial hw m
  rw [heq, Machine.patches_withDbregs]

@[simp]
theorem patches_syncHardwareDbregs (allowPartial : Bool) (hw : HwOutcome) (m : Machine) :
    (syncHardwareDbregs allowPartial hw m).2.patches = m.patches := by
  obtain ⟨dbregs, valid, dr, heq⟩ := syncHardwareDbregs_eq allowPartial hw m
  rw [heq, Machine.patches_withDbregs]

@[simp]
theorem patches_setHardwareBreakpoint (address : Nat) (hw : HwOutcome) (m : Machine) :
    (setHardwareBreakpoint address hw m).2.patches = m.patches := by
  rw [setHardwareBreakpoint]
  split
  · rfl
  · rename_i slot _
    have hsync := patches_syncHardwareDbregs true hw (m.setWp slot (fakeWatchpoint address slot))
    split
    · rename_i m' hm'
      rwa [hm'] at hsync
    · rename_i st m' _ hm'
      rwa [hm'] at hsync

@[simp]
theorem patches_clearHardwareSlot (slot : Nat) (hw : HwOutcome) (m : Machine) :
    (clearHardwareSlot slot hw m).2.patches = m.patches := by
  have hsync := patches_syncHardwareDbregs false hw (m.setWp slot Watchpoint.zero)
  rw [clearHardwareSlot]
  split
  · rename_i m' hm'
    rwa [hm'] at hsync
  · rename_i st m' _ hm'
    rwa [hm'] at hsync

@[simp]
theorem patches_clearHardwareStatus (get set : Status) (lwp : Nat) (m : Machine) :
    (clearHardwareStatus get set lwp m).patches = m.patches := by
  rw [clearHardwareStatus]
  split_ifs
  all_goals rfl

section

variable (prog : Program)

theorem Target.execAll_code (t : Target) (runs : List Nat) :
    (t.execAll prog runs).mem = t.mem ∧ (t.execAll prog runs).own = t.own := by
  refine List.foldlRecOn (motive := fun t' : Target => t'.mem = t.mem ∧ t'.own = t.own) runs
    (Target.exec prog) ⟨rfl, rfl⟩ fun t' ht' lwp _ => ?_
  rw [Target.exec]
  dsimp only
  split_ifs
  all_goals exact ht'

@[simp]
theorem Machine.patches_ptStep (m : Machine) (runs : List Nat) :
    ({ m with target := m.target.ptStep prog runs } : Machine).patches = m.patches := by
  obtain ⟨hmem, hown⟩ := Target.execAll_code prog m.target.resume runs
  dsimp only [Machine.patches, Target.ptStep]
  rw [hmem, hown]
  rfl

@[simp]
theorem Machine.patches_advance (m : Machine) (runs : List Nat) (halts : Bool) :
    ({ m with target := m.target.advance prog runs halts } : Machine).patches = m.patches := by
  obtain ⟨hmem, hown⟩ := Target.execAll_code prog m.target runs
  dsimp only [Machine.patches]
  rw [Target.advance]
  split_ifs
  · dsimp only
    rw [hmem, hown]
  · rfl

end

section

variable {m : Machine} {i : Nat}

theorem installSwBreakpoint_inv (h : m.patches.Inv) (hsoft : (m.dbg.breakpoints i).IsSoft)
    (read write : Status) :
    (installSwBreakpoint read write i m).2.patches.Inv ∧
      ((m.dbg.breakpoints i).installed = false → (installSwBreakpoint read write i m).1 ≠ .ok →
        ((installSwBreakpoint read write i m).2.dbg.breakpoints i).installed = false) := by
  rw [installSwBreakpoint]
  split_ifs with hinstalled hread hwrite
  · exact ⟨h, fun _ hst => absurd rfl hst⟩
  · exact ⟨h, fun hnot _ => hnot⟩
  · rw [Bool.not_eq_true] at hinstalled
    refine ⟨h.setBp (h.size i hsoft.1) (fun _ hins => ?_) (fun _ => hinstalled) ?_
      (fun _ => h.session i hsoft.1), fun _ _ => ?_⟩
    · rw [show (m.patches.bps i).installed = false from hinstalled] at hins
      cases hins
    · intro _ j hne hj haddress
      exact hne (h.distinct j i hj hsoft.1 haddress)
    · dsimp only [Machine.setBp]
      rw [update_self]
      exact hinstalled
  · rw [Bool.not_eq_true] at hinstalled
    refine ⟨?_, fun _ hst => absurd rfl hst⟩
    have hinv := h.install hsoft int3Opcode hinstalled
    dsimp only [Machine.patches, Machine.setBp, Target.poke]
    rw [update_idem]
    exact hinv

theorem uninstallSwBreakpoint_inv (h : m.patches.Inv) (hsoft : (m.dbg.breakpoints i).IsSoft)
    (write : Status) :
    (uninstallSwBreakpoint write i m).2.patches.Inv ∧
      ((uninstallSwBreakpoint write i m).1 = .ok →
        ((uninstallSwBreakpoint write i m).2.dbg.breakpoints i).installed = false) := by
  rw [uninstallSwBreakpoint]
  split_ifs with hinstalled hwrite
  · exact ⟨h, fun _ => by simpa using hinstalled⟩
  · exact ⟨h, fun hst => absurd hst hwrite⟩
  · have hins : (m.dbg.breakpoints i).installed = true := by simpa using hinstalled
    have hrestore := h.restore (m.patches.bps i).address
    rw [← h.faithful i hsoft hins] at hrestore
    refine ⟨hrestore.setBp (h.size i hsoft.1) (fun _ _ => ?_) (fun _ => rfl) ?_
      (fun _ => h.session i hsoft.1), fun _ => ?_⟩
    · exact (update_self ..).trans (h.faithful i hsoft hins)
    · intro _ j hne hj haddress
      exact hne (h.distinct j i hj hsoft.1 haddress)
    · dsimp only [Machine.setBp]
      rw [update_self]

theorem breakpoints_uninstallSwBreakpoint (write : Status) (i : Nat) (m : Machine) :
    ∃ installed, (uninstallSwBreakpoint write i m).2.dbg.breakpoints =
      update m.dbg.breakpoints i { m.dbg.breakpoints i with installed := installed } := by
  rw [uninstallSwBreakpoint]
  split_ifs
  · exact ⟨_, (update_eq_self i m.dbg.breakpoints).symm⟩
  · exact ⟨_, (update_eq_self i m.dbg.breakpoints).symm⟩
  · exact ⟨false, rfl⟩

theorem isSoft_uninstallSwBreakpoint (write : Status) (i j : Nat) (m : Machine) :
    ((uninstallSwBreakpoint write i m).2.dbg.breakpoints j).IsSoft ↔
      (m.dbg.breakpoints j).IsSoft := by
  obtain ⟨installed, heq⟩ := breakpoints_uninstallSwBreakpoint write i m
  rw [heq]
  rcases eq_or_ne j i with rfl | hne
  · rw [update_self]
    rfl
  · rw [update_of_ne hne]

theorem dropBreakpoint_inv (h : m.patches.Inv) (hi : i < maxBreakpoints)
    (hfree : (m.dbg.breakpoints i).IsSoft → (m.dbg.breakpoints i).installed = true →
      m.target.mem (m.dbg.breakpoints i).address = m.target.own (m.dbg.breakpoints i).address) :
    (m.setBp i Breakpoint.zero).patches.Inv :=
  h.setBp hi hfree (fun _ => rfl) (fun hactive => nomatch hactive) (fun hactive => nomatch hactive)

theorem Dbg.findBreakpointSlot_active {g : Dbg} {a : Nat} (h : g.findBreakpointSlot a = some i) :
    i < maxBreakpoints ∧ (g.breakpoints i).active = true := by
  have hfound := find?_some h
  rw [Bool.and_eq_true] at hfound
  exact ⟨mem_range.1 (mem_of_find?_eq_some h), hfound.1⟩

theorem setBreakpointCond_inv (h : m.patches.Inv) (address kind condReg condOp : Nat)
    (condValue : Int) (o : SetOutcome) :
    (setBreakpointCond address kind condReg condOp condValue o m).2.patches.Inv := by
  rw [setBreakpointCond]
  split_ifs with hattached hreg hop hfind
  · exact h
  · exact h
  · exact h
  · exact h
  · rw [Option.not_isSome_iff_eq_none] at hfind
    split
    · exact h
    · rename_i slot halloc
      have hfree := find?_some halloc
      have hlt := mem_range.1 (mem_of_find?_eq_some halloc)
      rw [Bool.not_eq_true'] at hfree
      -- the new entry, before anything is written
      have hnew (k : BpKind) : (m.setBp slot
          ⟨address, k, 0, false, true, condReg, condOp, condValue⟩).patches.Inv := by
        refine h.setBp hlt (fun hsoft _ => ?_) (fun _ => rfl) (fun _ j _ hj haddress => ?_)
          (fun _ => by simpa [Machine.patches] using hattached)
        · have hactive := hsoft.1
          rw [show (m.patches.bps slot).active = false from hfree] at hactive
          cases hactive
        · have hnot := find?_eq_none.1 hfind j (mem_range.2 (h.size j hj))
          rw [show (m.dbg.breakpoints j).active = true from hj,
            show (m.dbg.breakpoints j).address = address from haddress] at hnot
          simp at hnot
      cases hkind : bpKindOf kind with
      | none =>
        refine dropBreakpoint_inv h hlt fun hsoft _ => ?_
        have hactive := hsoft.1
        rw [hfree] at hactive
        cases hactive
      | some k =>
        cases k with
        | software =>
          have hentry : (m.setBp slot ⟨address, .software, 0, false, true, condReg, condOp,
              condValue⟩).dbg.breakpoints slot =
              ⟨address, .software, 0, false, true, condReg, condOp, condValue⟩ :=
            update_self ..
          obtain ⟨hinv, hfail⟩ := installSwBreakpoint_inv (hnew .software)
            (by rw [hentry]; exact ⟨rfl, rfl⟩) o.read o.write
          dsimp only
          split_ifs with hst
          · exact hinv
          · refine dropBreakpoint_inv hinv hlt fun _ hinstalled => ?_
            rw [hfail (by rw [hentry]) hst] at hinstalled
            cases hinstalled
        | hardware =>
          dsimp only
          split_ifs
          · rw [patches_setHardwareBreakpoint]
            exact hnew .hardware
          · have hinv := hnew .hardware
            rw [← patches_setHardwareBreakpoint address o.hw] at hinv
            refine dropBreakpoint_inv hinv hlt fun hsoft _ => ?_
            have hkind := hsoft.2
            have hbps := congrArg Patches.bps (patches_setHardwareBreakpoint address o.hw
              (m.setBp slot ⟨address, .hardware, 0, false, true, condReg, condOp, condValue⟩))
            dsimp only [Machine.patches] at hbps
            rw [hbps] at hkind
            dsimp only [Machine.setBp] at hkind
            rw [update_self] at hkind
            cases hkind

theorem clearBreakpoint_inv (h : m.patches.Inv) (address : Nat) (write : Status) (hw : HwOutcome) :
    (clearBreakpoint address write hw m).2.patches.Inv := by
  rw [clearBreakpoint]
  split_ifs
  · exact h
  · split
    · exact h
    · rename_i slot hfind
      obtain ⟨hlt, hactive⟩ := Dbg.findBreakpointSlot_active hfind
      cases hkind : (m.dbg.breakpoints slot).kind with
      | software =>
        obtain ⟨hinv, hnot⟩ := uninstallSwBreakpoint_inv h ⟨hactive, hkind⟩ write
        dsimp only
        split_ifs with hst
        · refine dropBreakpoint_inv hinv hlt fun _ hinstalled => ?_
          rw [hnot hst] at hinstalled
          cases hinstalled
        · exact hinv
      | hardware =>
        have hdrop : (m.setBp slot Breakpoint.zero).patches.Inv := by
          refine dropBreakpoint_inv h hlt fun hsoft _ => ?_
          cases hkind.symm.trans hsoft.2
        have hpatches (m' : Machine) (heq : m'.patches = m.patches) :
            (m'.setBp slot Breakpoint.zero).patches.Inv := by
          have hsame : (m'.setBp slot Breakpoint.zero).patches =
              m'.patches.setBp slot Breakpoint.zero := rfl
          rw [hsame, heq]
          exact hdrop
        dsimp only
        split
        · split_ifs
          · exact hpatches _ (patches_clearHardwareSlot ..)
          · rw [patches_clearHardwareSlot]
            exact h
        · exact hpatches m rfl

def Restorable (write : Nat → Status) (m : Machine) : Prop :=
  ∀ i, (m.dbg.breakpoints i).IsSoft → (m.dbg.breakpoints i).installed = true →
    m.target.mem (m.dbg.breakpoints i).address ≠ m.target.own (m.dbg.breakpoints i).address →
      write i = .ok

theorem uninstallSwBreakpoint_fail {write : Status}
    (h : (uninstallSwBreakpoint write i m).1 ≠ .ok) :
    (uninstallSwBreakpoint write i m).2 = m ∧ write ≠ .ok := by
  rw [uninstallSwBreakpoint] at h ⊢
  split_ifs at h ⊢ with hinstalled hwrite
  · exact absurd rfl h
  · exact ⟨rfl, hwrite⟩
  · exact absurd rfl h

theorem mem_uninstallSwBreakpoint (h : m.patches.Inv) (hsoft : (m.dbg.breakpoints i).IsSoft)
    (write : Status) :
    (uninstallSwBreakpoint write i m).2.target.own = m.target.own ∧
      ∀ a, (uninstallSwBreakpoint write i m).2.target.mem a ≠ m.target.own a →
        m.target.mem a ≠ m.target.own a := by
  rw [uninstallSwBreakpoint]
  split_ifs with hinstalled hwrite
  · exact ⟨rfl, fun _ ha => ha⟩
  · exact ⟨rfl, fun _ ha => ha⟩
  · refine ⟨rfl, fun a ha => ?_⟩
    have hins : (m.dbg.breakpoints i).installed = true := by simpa using hinstalled
    dsimp only [Target.poke] at ha
    rcases eq_or_ne a (m.dbg.breakpoints i).address with rfl | hne
    · rw [update_self] at ha
      exact absurd (h.faithful i hsoft hins) ha
    · rwa [update_of_ne hne] at ha

theorem restorable_setBp_zero {write : Nat → Status} {m' : Machine} (hres : Restorable write m)
    (hbps : ∀ j, j ≠ i → m'.dbg.breakpoints j = m.dbg.breakpoints j)
    (hown : m'.target.own = m.target.own)
    (hmem : ∀ a, m'.target.mem a ≠ m.target.own a → m.target.mem a ≠ m.target.own a) :
    Restorable write (m'.setBp i Breakpoint.zero) := by
  intro j hsoft hinstalled hne
  dsimp only [Machine.setBp] at hsoft hinstalled hne
  rcases eq_or_ne j i with rfl | hji
  · rw [update_self] at hsoft
    cases hsoft.1
  · rw [update_of_ne hji, hbps j hji] at hsoft hinstalled hne
    rw [hown] at hne
    exact hres j hsoft hinstalled (hmem _ hne)

theorem clearEntry_patches {write : Nat → Status} (h : m.patches.Inv) (hres : Restorable write m)
    (hi : i < maxBreakpoints) :
    (clearEntry write m i).patches.Inv ∧ Restorable write (clearEntry write m i) := by
  rw [clearEntry]
  split_ifs with hactive
  · exact ⟨h, hres⟩
  · have hact : (m.dbg.breakpoints i).active = true := by simpa using hactive
    cases hkind : (m.dbg.breakpoints i).kind with
    | software =>
      have hsoft : (m.dbg.breakpoints i).IsSoft := ⟨hact, hkind⟩
      obtain ⟨hinv, hnot⟩ := uninstallSwBreakpoint_inv h hsoft (write i)
      obtain ⟨hown, hmem⟩ := mem_uninstallSwBreakpoint h hsoft (write i)
      constructor
      · refine dropBreakpoint_inv hinv hi fun _ hinstalled => ?_
        by_cases hst : (uninstallSwBreakpoint (write i) i m).1 = .ok
        · rw [hnot hst] at hinstalled
          cases hinstalled
        · obtain ⟨hsame, hwrite⟩ := uninstallSwBreakpoint_fail hst
          rw [hsame] at hinstalled ⊢
          by_contra hne
          exact hwrite (hres i hsoft hinstalled hne)
      · refine restorable_setBp_zero hres (fun j hne => ?_) hown hmem
        obtain ⟨installed, heq⟩ := breakpoints_uninstallSwBreakpoint (write i) i m
        rw [heq, update_of_ne hne]
    | hardware =>
      have hdrop : (m.setBp i Breakpoint.zero).patches.Inv := by
        refine dropBreakpoint_inv h hi fun hsoft _ => ?_
        cases hkind.symm.trans hsoft.2
      dsimp only
      split
      · exact ⟨hdrop, restorable_setBp_zero hres (fun _ _ => rfl) rfl fun _ ha => ha⟩
      · exact ⟨hdrop, restorable_setBp_zero hres (fun _ _ => rfl) rfl fun _ ha => ha⟩

theorem clearAllBreakpoints_patches {write : Nat → Status} (h : m.patches.Inv)
    (hres : Restorable write m) (hw : HwOutcome) :
    (clearAllBreakpoints write hw m).2.patches.Inv := by
  rw [clearAllBreakpoints]
  dsimp only
  split_ifs
  · exact h
  all_goals
    have hfold := List.foldlRecOn (motive := fun m' : Machine =>
      m'.patches.Inv ∧ Restorable write m') (List.range maxBreakpoints) (clearEntry write)
      ⟨h, hres⟩ (fun m' hm' i hi => clearEntry_patches hm'.1 hm'.2 (mem_range.1 hi))
  · rw [patches_syncHardwareDbregs]
    exact hfold.1
  · exact hfold.1

end

/-! ## Watchpoints -/

theorem patches_setWatchpoint (address length type : Nat) (hw : HwOutcome) (m : Machine) :
    (setWatchpoint address length type hw m).2.patches = m.patches := by
  rw [setWatchpoint]
  split_ifs
  · rfl
  · rfl
  · rfl
  · rfl
  · split
    · rfl
    · rename_i slot _
      have hsync := patches_syncHardwareDbregs true hw
        (m.setWp slot ⟨address, length, type, slot, true⟩)
      split
      · rename_i m' hm'
        rwa [hm'] at hsync
      · rename_i st m' _ hm'
        rwa [hm'] at hsync

theorem patches_clearWatchpoint (address : Nat) (hw : HwOutcome) (m : Machine) :
    (clearWatchpoint address hw m).2.patches = m.patches := by
  rw [clearWatchpoint]
  split_ifs
  · rfl
  · split
    · rfl
    · rw [patches_clearHardwareSlot]

theorem patches_clearAllWatchpoints (hw : HwOutcome) (m : Machine) :
    (clearAllWatchpoints hw m).2.patches = m.patches := by
  have hsync := patches_syncHardwareDbregs false hw
    { m with dbg := { m.dbg with watchpoints := fun _ => Watchpoint.zero } }
  rw [clearAllWatchpoints]
  split_ifs
  · rfl
  · split
    · rename_i m' hm'
      rwa [hm'] at hsync
    · rename_i st m' _ hm'
      rwa [hm'] at hsync
  · rfl

/-! ## Running the target -/

section

variable (prog : Program) {m : Machine}

theorem finishStepOver_patches (h : m.patches.Inv) {slot : Nat}
    (hsoft : (m.dbg.breakpoints slot).IsSoft) (lwp : Nat) (o : StepOutcome) :
    (finishStepOver lwp slot o m).2.patches.Inv := by
  have hinv := (installSwBreakpoint_inv h hsoft o.read o.rewrite).1
  rw [finishStepOver]
  dsimp only
  split_ifs
  · exact h
  · exact hinv
  · exact hinv
  · exact hinv

theorem plainStep_patches (o : StepOutcome) (m : Machine) :
    (plainStep prog o m).2.patches = m.patches := by
  rw [plainStep]
  split_ifs
  · rfl
  · rw [Machine.patches_ptStep]

theorem repairedStep_patches (h : m.patches.Inv) {slot : Nat}
    (hsoft : (m.dbg.breakpoints slot).IsSoft) (lwp : Nat) (o : StepOutcome) :
    (repairedStep prog lwp slot o m).2.patches.Inv := by
  have hinv := (uninstallSwBreakpoint_inv h hsoft o.write).1
  have hsoft' := (isSoft_uninstallSwBreakpoint o.write slot slot m).2 hsoft
  rw [repairedStep]
  split
  · rename_i m' hm'
    rw [hm'] at hinv hsoft'
    split_ifs
    · exact (installSwBreakpoint_inv hinv hsoft' o.read o.rewrite).1
    · exact (installSwBreakpoint_inv (m := m'.moveBack lwp) hinv hsoft' o.read o.rewrite).1
    · have hstep := Machine.patches_ptStep prog (m'.moveBack lwp) o.runs
      refine finishStepOver_patches (m := ⟨m'.dbg, (m'.moveBack lwp).target.ptStep prog o.runs⟩)
        ?_ hsoft' lwp o
      rw [show (⟨m'.dbg, (m'.moveBack lwp).target.ptStep prog o.runs⟩ : Machine).patches = _
        from hstep]
      exact hinv
  · rename_i st m' _ hm'
    rw [hm'] at hinv
    exact hinv

theorem stepOverSwBreakpoint_patches (h : m.patches.Inv) (lwp : Nat) (o : StepOutcome) :
    (stepOverSwBreakpoint prog lwp o m).2.patches.Inv := by
  rw [← patches_clearHardwareStatus o.statusGet o.statusSet lwp m] at h
  rw [stepOverSwBreakpoint]
  generalize clearHardwareStatus o.statusGet o.statusSet lwp m = m at h ⊢
  split
  · exact h
  · split
    · rw [plainStep_patches prog]
      exact h
    · rename_i slot hslot
      split
      · rw [plainStep_patches prog]
        exact h
      · rename_i hkind
        rw [ne_eq, not_not] at hkind
        exact repairedStep_patches prog h ⟨(Dbg.findBreakpointSlot_active hslot).2, hkind⟩ lwp o

theorem continueThreads_patches (o : ContinueOutcome) (lwps : List Nat) :
    ∀ m : Machine, m.patches.Inv → (continueThreads prog o lwps m).2.patches.Inv := by
  induction lwps with
  | nil =>
    intro m h
    exact h
  | cons lwp rest ih =>
    intro m h
    rw [continueThreads]
    split
    · exact ih m h
    · split
      · exact ih m h
      · have hstep := stepOverSwBreakpoint_patches prog h lwp (o.steps lwp)
        dsimp only
        split_ifs
        · exact hstep
        · exact hstep
        · exact ih _ hstep

theorem rearm_patches (hw : HwOutcome) (m : Machine) : (rearm hw m).patches = m.patches := by
  rw [rearm]
  split_ifs
  · rw [patches_syncHardwareDbregs]
  · rfl

theorem debuggerContinue_patches (h : m.patches.Inv) (o : ContinueOutcome) :
    (debuggerContinue prog o m).2.patches.Inv := by
  rw [debuggerContinue]
  split
  · exact h
  · rw [← rearm_patches o.hw m] at h
    have hinv := continueThreads_patches prog o (rearm o.hw m).threads _ h
    split
    · rename_i st m' heq
      rw [heq] at hinv
      exact hinv
    · rename_i m' heq
      rw [heq] at hinv
      split_ifs
      · exact hinv
      · exact hinv

theorem debuggerStep_patches (h : m.patches.Inv) (lwp : Nat) (o : StepOutcome) :
    (debuggerStep prog lwp o m).2.patches.Inv := by
  have hstep := stepOverSwBreakpoint_patches prog h lwp o
  rw [debuggerStep]
  dsimp only
  split_ifs
  · exact h
  · exact hstep
  · exact hstep
  · exact hstep

theorem pollEvents_patches (h : m.patches.Inv) (o : PollOutcome) :
    (pollEvents o m).2.patches.Inv := by
  rw [pollEvents]
  split
  · exact h
  · split
    · exact h
    · exact h
    · exact Patches.Inv.of_eq rfl fun _ => rfl
    · split
      · exact h
      · split
        · split_ifs
          · exact h
          · exact h
          · exact h
        · exact h

theorem stopLoop_patches (polls : List StopPoll) :
    ∀ m : Machine, m.patches.Inv → (stopLoop prog polls m).2.patches.Inv := by
  induction polls with
  | nil =>
    intro m h
    exact h
  | cons o rest ih =>
    intro m h
    rw [← Machine.patches_advance prog m o.runs o.halts] at h
    have hpoll := pollEvents_patches h o.poll
    rw [stopLoop]
    split
    · rename_i m' heq
      rw [heq] at hpoll
      split_ifs
      · exact hpoll
      · exact hpoll
      · exact ih m' hpoll
    · rename_i st m' _ heq
      rw [heq] at hpoll
      exact hpoll

theorem restoreEntry_patches (h : m.patches.Inv) (write : Nat → Status) (n : Nat) :
    ((List.range n).foldl (restoreEntry write) (.ok, m)).2.patches.Inv ∧
      (((List.range n).foldl (restoreEntry write) (.ok, m)).1 = .ok → ∀ i < n,
        (((List.range n).foldl (restoreEntry write) (.ok, m)).2.dbg.breakpoints i).IsSoft →
        (((List.range n).foldl (restoreEntry write) (.ok, m)).2.dbg.breakpoints i).installed =
          false) := by
  induction n with
  | zero => exact ⟨h, fun _ i hi => absurd hi (Nat.not_lt_zero i)⟩
  | succ n ih =>
    rw [range_succ, foldl_append, foldl_cons, foldl_nil]
    obtain ⟨hinv, hdone⟩ := ih
    generalize (List.range n).foldl (restoreEntry write) (.ok, m) = p at hinv hdone ⊢
    obtain ⟨st, m'⟩ := p
    by_cases hsoft : (m'.dbg.breakpoints n).IsSoft
    · obtain ⟨hinv', hnot⟩ := uninstallSwBreakpoint_inv hinv hsoft (write n)
      rw [restoreEntry, if_pos (by simpa [Breakpoint.IsSoft] using hsoft)]
      refine ⟨hinv', fun hok i hi hi' => ?_⟩
      dsimp only at hok
      split_ifs at hok with hfail
      · exact absurd hok hfail.1
      · have hst : (uninstallSwBreakpoint (write n) n m').1 = .ok := by
          by_contra hne
          exact hfail ⟨hne, hok⟩
        rcases eq_or_ne i n with rfl | hne
        · exact hnot hst
        · obtain ⟨installed, heq⟩ := breakpoints_uninstallSwBreakpoint (write n) n m'
          rw [heq, update_of_ne hne] at hi' ⊢
          exact hdone hok i (Nat.lt_of_le_of_ne (Nat.le_of_lt_succ hi) hne) hi'
    · rw [restoreEntry, if_neg (by simpa [Breakpoint.IsSoft] using hsoft)]
      refine ⟨hinv, fun hok i hi hi' => ?_⟩
      rcases eq_or_ne i n with rfl | hne
      · exact absurd hi' hsoft
      · exact hdone hok i (Nat.lt_of_le_of_ne (Nat.le_of_lt_succ hi) hne) hi'

theorem patches_clearDbregs (hw : HwOutcome) (m : Machine) :
    (clearDbregs hw m).patches = m.patches := by
  rw [clearDbregs]
  split_ifs
  · rw [patches_applyDbregsToAll]
    rfl
  · rfl

theorem debuggerDetach_patches (h : m.patches.Inv) (o : DetachOutcome) :
    (debuggerDetach prog o m).2.patches.Inv := by
  have hstop : (detachStop prog o m).2.patches.Inv := by
    rw [detachStop]
    split_ifs
    · exact h
    · exact h
    · exact stopLoop_patches prog o.polls m h
  rw [debuggerDetach]
  split
  · exact h
  · split
    · rename_i m₁ hm₁
      rw [hm₁] at hstop
      obtain ⟨hinv, hdone⟩ := restoreEntry_patches hstop o.write maxBreakpoints
      split
      · rename_i m₂ hm₂
        rw [hm₂] at hinv hdone
        have hpatches := patches_clearDbregs o.hw m₂
        split_ifs
        · rw [hpatches]
          exact hinv
        · -- no entry is installed, so no byte is changed
          refine Patches.Inv.of_eq (funext fun a => ?_) fun _ => rfl
          by_contra hne
          rw [show (Machine.mk Dbg.zero (clearDbregs o.hw m₂).target.resume).patches.mem =
              (clearDbregs o.hw m₂).patches.mem from rfl,
            show (Machine.mk Dbg.zero (clearDbregs o.hw m₂).target.resume).patches.own =
              (clearDbregs o.hw m₂).patches.own from rfl, hpatches] at hne
          obtain ⟨i, hlt, hsoft, hinstalled, -⟩ := hinv.held a hne
          have hnot := hdone rfl i hlt hsoft
          rw [show (m₂.patches.bps i).installed = false from hnot] at hinstalled
          cases hinstalled
      · rename_i st m₂ _ hm₂
        rw [hm₂] at hinv
        exact hinv
    · rename_i st m₁ _ hm₁
      rw [hm₁] at hstop
      exact hstop

/-! ## Every run -/

inductive CodeEvent where
  | serve (op : Operation)
  | attach
  | store (a : Nat) (b : UInt8)
  | others (t : Target)

def Machine.patchedAt (m : Machine) (a : Nat) : Bool :=
  (List.range maxBreakpoints).any fun i => (m.dbg.breakpoints i).active &&
    (m.dbg.breakpoints i).kind = .software && (m.dbg.breakpoints i).installed &&
    (m.dbg.breakpoints i).address == a

def codeStep (m : Machine) : CodeEvent → Option Machine
  | .serve op => some (op.serve prog m).2
  | .attach => if m.dbg.attached then none else some { m with dbg := .attach }
  | .store a b =>
    if m.patchedAt a then none
    else some { m with target := { m.target with
      mem := update m.target.mem a b, own := update m.target.own a b } }
  | .others t => some { m with target := { t with mem := m.target.mem, own := m.target.own } }

/-- `memdbg_debugger_clear_all_breakpoints` can write every byte back that it has to. -/
def WritesBack (m : Machine) : CodeEvent → Prop
  | .serve (.clearAllBreakpoints write _) => Restorable write m
  | _ => True

theorem Patches.Inv.store {p : Patches} (h : p.Inv) {a : Nat}
    (ha : ∀ i, (p.bps i).IsSoft → (p.bps i).installed = true → (p.bps i).address ≠ a) (b : UInt8) :
    Inv { p with mem := update p.mem a b, own := update p.own a b } where
  held c hc := by
    dsimp only at hc
    rcases eq_or_ne c a with rfl | hne
    · rw [update_self, update_self] at hc
      exact absurd rfl hc
    · rw [update_of_ne hne, update_of_ne hne] at hc
      obtain ⟨i, hlt, hsoft, hinstalled, haddress, horiginal⟩ := h.held c hc
      exact ⟨i, hlt, hsoft, hinstalled, haddress, horiginal.trans (update_of_ne hne ..).symm⟩
  distinct := h.distinct
  faithful i hsoft hinstalled := by
    dsimp only
    rw [update_of_ne (ha i hsoft hinstalled)]
    exact h.faithful i hsoft hinstalled
  size := h.size
  session := h.session

theorem codeStep_patches {m m' : Machine} {e : CodeEvent} (h : m.patches.Inv)
    (hwrites : WritesBack m e) (hstep : codeStep prog m e = some m') : m'.patches.Inv := by
  cases e with
  | serve op =>
    cases hstep
    cases op with
    | setBreakpoint address kind condReg condOp condValue o =>
      exact setBreakpointCond_inv h address kind condReg condOp condValue o
    | clearBreakpoint address write hw => exact clearBreakpoint_inv h address write hw
    | clearAllBreakpoints write hw => exact clearAllBreakpoints_patches h hwrites hw
    | setWatchpoint address length type hw =>
      rw [Operation.serve, patches_setWatchpoint]
      exact h
    | clearWatchpoint address hw =>
      rw [Operation.serve, patches_clearWatchpoint]
      exact h
    | clearAllWatchpoints hw =>
      rw [Operation.serve, patches_clearAllWatchpoints]
      exact h
    | «continue» o => exact debuggerContinue_patches prog h o
    | step lwp o => exact debuggerStep_patches prog h lwp o
    | pollEvents o => exact pollEvents_patches h o
    | detach o => exact debuggerDetach_patches prog h o
  | attach =>
    rw [codeStep] at hstep
    split_ifs at hstep with hattached
    cases hstep
    refine Patches.Inv.of_eq (funext fun a => ?_) fun _ => rfl
    by_contra hne
    obtain ⟨i, -, hsoft, -⟩ := h.held a hne
    exact hattached (h.session i hsoft.1)
  | store a b =>
    rw [codeStep] at hstep
    split_ifs at hstep with hat
    cases hstep
    refine h.store (fun i hsoft hinstalled haddress => hat ?_) b
    rw [Machine.patchedAt, any_eq_true]
    refine ⟨i, mem_range.2 (h.size i hsoft.1), ?_⟩
    obtain ⟨hactive, hkind⟩ := hsoft
    simp only [Machine.patches] at hactive hkind hinstalled haddress
    simp [hactive, hkind, hinstalled, haddress]
  | others t =>
    cases hstep
    exact h

/-- In every run in which `memdbg_debugger_clear_all_breakpoints` can write back what it
has to, every changed byte is tracked. -/
theorem tracked_of_writesBack_run {t : Target} (ht : t.mem = t.own) {es : List CodeEvent}
    {m : Machine} (h : Run (codeStep prog) WritesBack ⟨Dbg.attach, t⟩ es m) :
    m.patches.Tracked := by
  refine Patches.Inv.toTracked (h.invariant (P := fun m => m.patches.Inv) ?_ ?_)
  · intro m e m' hm hwrites hstep
    exact codeStep_patches prog hm hwrites hstep
  · exact Patches.Inv.of_eq ht fun _ => rfl

end

def oneBreakpoint : Machine :=
  (setBreakpointCond 0x1000 0 0 0 0 ⟨.ok, .ok, .fine⟩ ⟨Dbg.attach, .idle [1]⟩).2

theorem tracked_of_writesBack_run_clear :
    (clearAllBreakpoints (fun _ => .ok) .fine oneBreakpoint).2.patches.Tracked := by
  have hrun : Run (codeStep fun _ _ r => r) WritesBack ⟨Dbg.attach, .idle [1]⟩
      [.serve (.setBreakpoint 0x1000 0 0 0 0 ⟨.ok, .ok, .fine⟩),
        .serve (.clearAllBreakpoints (fun _ => .ok) .fine)]
      (clearAllBreakpoints (fun _ => .ok) .fine oneBreakpoint).2 :=
    .cons trivial rfl (.cons (fun _ _ _ _ => rfl) rfl (.nil _))
  exact tracked_of_writesBack_run _ rfl hrun

theorem clearAllBreakpoints_untracked :
    ¬ (clearAllBreakpoints (fun _ => .errIo) .fine oneBreakpoint).2.patches.Tracked := by
  intro h
  have hnone : ∀ i < maxBreakpoints, ((clearAllBreakpoints (fun _ => .errIo) .fine
      oneBreakpoint).2.patches.bps i).active = false := by decide
  obtain ⟨i, hlt, ⟨hactive, -⟩, -⟩ := h.held 0x1000 (by decide)
  rw [hnone i hlt] at hactive
  cases hactive

end MemDbg.Debug
