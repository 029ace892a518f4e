import MemDbg.Debug.Machine
import MemDbg.Lib.Transition

/-!
# Breakpoints and watchpoints

Software breakpoints are written into the code of the target; hardware breakpoints
are execute watchpoints in the table of the debug registers.  The registers of all
threads follow that table: in part when one is added, in whole or not at all when
one is removed.
-/

namespace MemDbg.Debug

open Function

/-! ## Slots -/

def Dbg.findBreakpointSlot (g : Dbg) (address : Nat) : Option Nat :=
  (List.range maxBreakpoints).find? fun i =>
    (g.breakpoints i).active && (g.breakpoints i).address == address

def Dbg.allocBreakpointSlot (g : Dbg) : Option Nat :=
  (List.range maxBreakpoints).find? fun i => !(g.breakpoints i).active

def Dbg.findWatchpointSlot (g : Dbg) (address : Nat) : Option Nat :=
  (List.range maxWatchpoints).find? fun i =>
    (g.watchpoints i).installed && (g.watchpoints i).address == address

def Dbg.allocHwSlot (g : Dbg) : Option Nat :=
  (List.range maxWatchpoints).find? fun i => !(g.watchpoints i).installed

/-! ## Software breakpoints -/

def installSwBreakpoint (read write : Status) (i : Nat) (m : Machine) : Status × Machine :=
  let bp := m.dbg.breakpoints i
  if bp.installed then (.ok, m)
  else if read ≠ .ok then (read, m)
  else
    let bp := { bp with originalByte := m.target.mem bp.address }
    let m := m.setBp i bp
    if write ≠ .ok then (write, m)
    else
      (.ok, { m.setBp i { bp with installed := true } with
        target := m.target.poke bp.address int3Opcode })

def uninstallSwBreakpoint (write : Status) (i : Nat) (m : Machine) : Status × Machine :=
  let bp := m.dbg.breakpoints i
  if !bp.installed then (.ok, m)
  else if write ≠ .ok then (write, m)
  else
    (.ok, { m.setBp i { bp with installed := false } with
      target := m.target.poke bp.address bp.originalByte })

/-! ## Debug registers -/

def Watchpoint.rw (wp : Watchpoint) : Nat :=
  match wp.type with
  | 0 => 0
  | 1 => 1
  | _ => 3

def Watchpoint.len (wp : Watchpoint) : Nat :=
  match wp.length with
  | 1 => 0
  | 2 => 1
  | 8 => 2
  | _ => 3

def buildDr7 (watchpoints : Nat → Watchpoint) : Nat :=
  (List.range maxWatchpoints).foldl (fun dr7 i =>
    let wp := watchpoints i
    if wp.installed then
      let shift := 16 + i * 4
      dr7 ||| (wp.rw <<< shift ||| wp.len <<< (shift + 2)) ||| 1 <<< (i * 2) |||
        1 <<< (i * 2 + 1)
    else dr7) 0

structure HwOutcome where
  calloc : Bool
  refresh : Status
  get : Nat → Status
  set : Nat → Status

def HwOutcome.fine : HwOutcome := ⟨true, .ok, fun _ => .ok, fun _ => .ok⟩

structure Applied where
  dr : Nat → Dbregs
  changed : List (Nat × Dbregs)
  skipped : Nat
  lastError : Status

def applyThread (dbregs : Dbregs) (hw : HwOutcome) (a : Applied) (lwp : Nat) : Applied :=
  if hw.get lwp ≠ .ok then { a with skipped := a.skipped + 1, lastError := hw.get lwp }
  else if hw.set lwp ≠ .ok then { a with skipped := a.skipped + 1, lastError := hw.set lwp }
  else
    { a with
      dr := update a.dr lwp dbregs
      changed := a.changed ++ [(lwp, a.dr lwp)] }

def rollback (dr : Nat → Dbregs) (changed : List (Nat × Dbregs)) : Nat → Dbregs :=
  changed.foldl (fun dr p => update dr p.1 p.2) dr

def applyDbregsToAll (allowPartial : Bool) (hw : HwOutcome) (m : Machine) : Status × Machine :=
  if m.threads.length = 0 then (if allowPartial then .errIo else .ok, m)
  else if !hw.calloc then (.errNomem, m)
  else
    let a := m.threads.foldl (applyThread m.dbg.dbregs hw) ⟨m.target.dr, [], 0, .ok⟩
    if a.skipped = 0 || (allowPartial && a.changed ≠ []) then
      (.ok, { m with target := { m.target with dr := a.dr } })
    else
      (a.lastError, { m with target := { m.target with dr := rollback a.dr a.changed } })

def configured (watchpoints : Nat → Watchpoint) (dbregs : Dbregs) : Dbregs := fun r =>
  if r < maxWatchpoints then
    if (watchpoints r).installed then (watchpoints r).address else 0
  else if r = 7 then buildDr7 watchpoints
  else dbregs r

def refreshDbregs (hw : HwOutcome) (m : Machine) : Status × Machine :=
  if m.dbg.dbregsValid then (.ok, m)
  else
    match m.threads with
    | [] => (.errIo, m)
    | lwp :: _ =>
      if hw.refresh ≠ .ok then (hw.refresh, m)
      else
        (.ok, { m with dbg := { m.dbg with
          dbregs := update (m.target.dr lwp) 6 0
          dbregsValid := true } })

def syncHardwareDbregs (allowPartial : Bool) (hw : HwOutcome) (m : Machine) : Status × Machine :=
  match refreshDbregs hw m with
  | (.ok, m) =>
    let m' := { m with dbg := { m.dbg with
      dbregs := configured m.dbg.watchpoints m.dbg.dbregs } }
    match applyDbregsToAll allowPartial hw m' with
    | (.ok, m') => (.ok, m')
    | (st, m') => (st, { m' with dbg := { m'.dbg with dbregs := m.dbg.dbregs } })
  | (st, m) => (st, m)

def Machine.withDbregs (m : Machine) (dbregs : Dbregs) (valid : Bool) (dr : Nat → Dbregs) :
    Machine where
  dbg := { m.dbg with dbregs := dbregs, dbregsValid := valid }
  target := { m.target with dr := dr }

theorem applyDbregsToAll_eq (allowPartial : Bool) (hw : HwOutcome) (m : Machine) :
    ∃ dr, (applyDbregsToAll allowPartial hw m).2 =
      m.withDbregs m.dbg.dbregs m.dbg.dbregsValid dr := by
  rw [applyDbregsToAll]
  dsimp only
  split_ifs
  · exact ⟨m.target.dr, rfl⟩
  · exact ⟨m.target.dr, rfl⟩
  · exact ⟨m.target.dr, rfl⟩
  · exact ⟨_, rfl⟩
  · exact ⟨_, rfl⟩

theorem refreshDbregs_eq (hw : HwOutcome) (m : Machine) :
    ∃ dbregs valid, (refreshDbregs hw m).2 = m.withDbregs dbregs valid m.target.dr := by
  rw [refreshDbregs]
  split
  · exact ⟨m.dbg.dbregs, m.dbg.dbregsValid, rfl⟩
  · split
    · exact ⟨m.dbg.dbregs, m.dbg.dbregsValid, rfl⟩
    · split
      · exact ⟨m.dbg.dbregs, m.dbg.dbregsValid, rfl⟩
      · exact ⟨_, _, rfl⟩

theorem syncHardwareDbregs_eq (allowPartial : Bool) (hw : HwOutcome) (m : Machine) :
    ∃ dbregs valid dr, (syncHardwareDbregs allowPartial hw m).2 = m.withDbregs dbregs valid dr := by
  obtain ⟨dbregs, valid, hrefresh⟩ := refreshDbregs_eq hw m
  rw [syncHardwareDbregs]
  split
  · rename_i m₁ hm₁
    rw [hm₁] at hrefresh
    subst hrefresh
    obtain ⟨dr, hdr⟩ := applyDbregsToAll_eq allowPartial hw
      { m.withDbregs dbregs valid m.target.dr with
        dbg := { (m.withDbregs dbregs valid m.target.dr).dbg with
          dbregs := configured (m.withDbregs dbregs valid m.target.dr).dbg.watchpoints
            (m.withDbregs dbregs valid m.target.dr).dbg.dbregs } }
    dsimp only
    split
    · rename_i m₂ hm₂
      rw [hm₂] at hdr
      exact ⟨_, _, _, hdr⟩
    · rename_i st m₂ _ hm₂
      rw [hm₂] at hdr
      dsimp only at hdr
      rw [hdr]
      exact ⟨_, _, _, rfl⟩
  · rename_i st m₁ _ hm₁
    rw [hm₁] at hrefresh
    exact ⟨_, _, _, hrefresh⟩

def clearHardwareStatus (get set : Status) (lwp : Nat) (m : Machine) : Machine :=
  if get ≠ .ok then m
  else if m.target.dr lwp 6 &&& 0xF = 0 then m
  else if set ≠ .ok then m
  else
    { m with target := { m.target with
      dr := update m.target.dr lwp
        (update (configured m.dbg.watchpoints (m.target.dr lwp)) 6 0) } }

/-! ## Breakpoint requests -/

def bpCondRip : Nat := 17

def bpCondGe : Nat := 5

structure SetOutcome where
  read : Status
  write : Status
  hw : HwOutcome

def fakeWatchpoint (address hw : Nat) : Watchpoint := ⟨address, 1, 0, hw, true⟩

def setHardwareBreakpoint (address : Nat) (hw : HwOutcome) (m : Machine) : Status × Machine :=
  match m.dbg.allocHwSlot with
  | none => (.errNomem, m)
  | some slot =>
    match syncHardwareDbregs true hw (m.setWp slot (fakeWatchpoint address slot)) with
    | (.ok, m) => (.ok, m)
    | (st, m) => (st, m.setWp slot Watchpoint.zero)

def setBreakpointCond (address kind condReg condOp : Nat) (condValue : Int) (o : SetOutcome)
    (m : Machine) : Status × Machine :=
  if !m.dbg.attached then (.errState, m)
  else if condReg > bpCondRip then (.errParam, m)
  else if condOp > bpCondGe then (.errParam, m)
  else if (m.dbg.findBreakpointSlot address).isSome then (.errParam, m)
  else
    match m.dbg.allocBreakpointSlot with
    | none => (.errNomem, m)
    | some slot =>
      let bp (kind : BpKind) : Breakpoint :=
        ⟨address, kind, 0, false, true, condReg, condOp, condValue⟩
      let (st, m) := match bpKindOf kind with
        | some .software => installSwBreakpoint o.read o.write slot (m.setBp slot (bp .software))
        | some .hardware => setHardwareBreakpoint address o.hw (m.setBp slot (bp .hardware))
        | none => (.errParam, m)
      (st, if st = .ok then m else m.setBp slot Breakpoint.zero)

def clearHardwareSlot (slot : Nat) (hw : HwOutcome) (m : Machine) : Status × Machine :=
  match syncHardwareDbregs false hw (m.setWp slot Watchpoint.zero) with
  | (.ok, m') => (.ok, m')
  | (st, m') => (st, m'.setWp slot (m.dbg.watchpoints slot))

def clearBreakpoint (address : Nat) (write : Status) (hw : HwOutcome) (m : Machine) :
    Status × Machine :=
  if !m.dbg.attached then (.errState, m)
  else
    match m.dbg.findBreakpointSlot address with
    | none => (.errNotFound, m)
    | some slot =>
      let (st, m) := match (m.dbg.breakpoints slot).kind with
        | .software => uninstallSwBreakpoint write slot m
        | .hardware =>
          match m.dbg.findWatchpointSlot address with
          | some hwSlot => clearHardwareSlot hwSlot hw m
          | none => (.ok, m)
      (st, if st = .ok then m.setBp slot Breakpoint.zero else m)

def clearEntry (write : Nat → Status) (m : Machine) (i : Nat) : Machine :=
  let bp := m.dbg.breakpoints i
  if !bp.active then m
  else
    let m := match bp.kind with
      | .software => (uninstallSwBreakpoint (write i) i m).2
      | .hardware =>
        match m.dbg.findWatchpointSlot bp.address with
        | some hwSlot => m.setWp hwSlot Watchpoint.zero
        | none => m
    m.setBp i Breakpoint.zero

def clearAllBreakpoints (write : Nat → Status) (hw : HwOutcome) (m : Machine) :
    Status × Machine :=
  if !m.dbg.attached then (.errState, m)
  else
    let any := (List.range maxBreakpoints).any fun i => (m.dbg.breakpoints i).active
    let m := (List.range maxBreakpoints).foldl (clearEntry write) m
    (.ok, if any then (syncHardwareDbregs false hw m).2 else m)

/-! ## Watchpoint requests -/

def setWatchpoint (address length type : Nat) (hw : HwOutcome) (m : Machine) : Status × Machine :=
  if !m.dbg.attached then (.errState, m)
  else if length ≠ 1 ∧ length ≠ 2 ∧ length ≠ 4 ∧ length ≠ 8 then (.errParam, m)
  else if type > 3 then (.errParam, m)
  else if (m.dbg.findWatchpointSlot address).isSome then (.errParam, m)
  else
    match m.dbg.allocHwSlot with
    | none => (.errNomem, m)
    | some slot =>
      match syncHardwareDbregs true hw (m.setWp slot ⟨address, length, type, slot, true⟩) with
      | (.ok, m) => (.ok, m)
      | (st, m) => (st, m.setWp slot Watchpoint.zero)

def clearWatchpoint (address : Nat) (hw : HwOutcome) (m : Machine) : Status × Machine :=
  if !m.dbg.attached then (.errState, m)
  else
    match m.dbg.findWatchpointSlot address with
    | none => (.errNotFound, m)
    | some slot => clearHardwareSlot slot hw m

def clearAllWatchpoints (hw : HwOutcome) (m : Machine) : Status × Machine :=
  if !m.dbg.attached then (.errState, m)
  else if (List.range maxWatchpoints).any fun i => (m.dbg.watchpoints i).installed then
    match syncHardwareDbregs false hw
        { m with dbg := { m.dbg with watchpoints := fun _ => Watchpoint.zero } } with
    | (.ok, m') => (.ok, m')
    | (st, m') => (st, { m' with dbg := { m'.dbg with watchpoints := m.dbg.watchpoints } })
  else (.ok, m)

end MemDbg.Debug
