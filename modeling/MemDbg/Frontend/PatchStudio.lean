import MemDbg.Lib.Transition
import MemDbg.Pal.MemoryWrite

/-!
# The patch studio

The debugger changes the code of a stopped process: by patches, each of which keeps the bytes that
were there when it was captured, and by a detour into a code cave.  Whether a read, a write or a
change of protection succeeds is part of a run here.  Requests that fail change nothing, and
requests that put a protection back do not fail.  The texts of the screen are left out.
-/

namespace MemDbg.Frontend

open List Lib Pal

/-! ## Patches -/

def patchStudioMaxBytes : Nat := 256

def protRwx : Nat := 7

def protRw : Nat := 3

def protRx : Nat := 5

structure PatchEntry where
  address : Nat
  original : List UInt8
  patched : List UInt8
  applied : Bool
  originalProtection : Nat
  appliedProtection : Nat
  hasProtection : Bool
deriving DecidableEq

structure PatchForm where
  address : Option Nat
  bytes : Option (List UInt8)
  mode : Nat
  length : Int
deriving DecidableEq

structure PatchSettings where
  useMprotect : Bool
  restoreProtection : Bool
  supportsProtect : Bool
deriving DecidableEq

structure PatchReplies where
  read : Bool
  protect : Bool
  write : Bool
deriving DecidableEq

def buildPatchBytes (form : PatchForm) : Option (List UInt8) :=
  let length := (max 1 (min form.length patchStudioMaxBytes)).toNat
  match form.mode with
  | 0 => form.bytes.bind fun bytes => if bytes.length > patchStudioMaxBytes then none
    else some bytes
  | 1 => some (List.replicate length 0x90)
  | 2 => some (List.replicate length 0xCC)
  | _ => none

def readPatchOriginal (t : Target) (address length : Nat) (r : PatchReplies) :
    Option (List UInt8) :=
  if length = 0 ∨ length > patchStudioMaxBytes then none
  else if r.read then some (slice t.mem address length)
  else none

def memoryWrite (t : Target) (address : Nat) (bytes : List UInt8) (ok : Bool) : Target :=
  if ok then { t with mem := store t.mem address bytes } else t

def processProtect (page : Nat) (t : Target) (address length prot : Nat) (ok : Bool) : Target :=
  if ok then t.setProt page address length prot else t

def oldProtection (page : Nat) (t : Target) (address : Nat) :
    Nat := t.protAt page address &&& protRwx

def protectedWrite (cfg : PatchSettings) (r : PatchReplies) : Bool :=
  cfg.useMprotect && cfg.supportsProtect && r.protect

def restoresProtection (page : Nat) (t : Target) (cfg : PatchSettings) (r : PatchReplies)
    (address : Nat) : Bool :=
  protectedWrite cfg r && cfg.restoreProtection && oldProtection page t address != 0

def writePatchBytes (page : Nat) (t : Target) (cfg : PatchSettings) (r : PatchReplies)
    (address : Nat) (bytes : List UInt8) (entry : PatchEntry) : Bool × Target × PatchEntry :=
  if bytes = [] then (false, t, entry)
  else
    let old := oldProtection page t address
    let entry :=
      if protectedWrite cfg r then
        { entry with
          originalProtection := old, appliedProtection := protRwx, hasProtection := true }
      else entry
    let t₁ := processProtect page t address bytes.length protRwx (protectedWrite cfg r)
    let t₂ := memoryWrite t₁ address bytes r.write
    let t₃ :=
      processProtect page t₂ address bytes.length old (restoresProtection page t cfg r address)
    (r.write, t₃, entry)

def composePatchEntry (t : Target) (form : PatchForm) (r : PatchReplies) : Option PatchEntry :=
  form.address.bind fun address =>
    (buildPatchBytes form).bind fun patched =>
      (readPatchOriginal t address patched.length r).map fun original =>
        { address := address
          original := original
          patched := patched
          applied := false
          originalProtection := 0
          appliedProtection := 0
          hasProtection := false }

/-! ## The studio -/

structure Cave where
  addr : Nat
  size : Nat
  allocated : Bool
  shellcode : List UInt8
deriving DecidableEq

/-- The process, the patches that are listed, the cave and the detour. -/
structure Studio where
  target : Target
  patches : List PatchEntry
  cave : Cave
  caveTargetAddr : Nat
  caveOriginalTargetBytes : List UInt8
  caveDetourActive : Bool

def Studio.capturePatch (s : Studio) (form : PatchForm) (r : PatchReplies) : Studio :=
  match composePatchEntry s.target form r with
  | none => s
  | some entry => { s with patches := s.patches ++ [entry] }

def Studio.applyComposedPatch (page : Nat) (s : Studio) (cfg : PatchSettings) (form : PatchForm)
    (r : PatchReplies) : Studio :=
  match composePatchEntry s.target form r with
  | none => s
  | some entry =>
    let w := writePatchBytes page s.target cfg r entry.address entry.patched entry
    if w.1 then
      { s with target := w.2.1, patches := s.patches ++ [{ w.2.2 with applied := true }] }
    else { s with target := w.2.1 }

def Studio.reapplyPatch (page : Nat) (s : Studio) (cfg : PatchSettings) (i : Nat)
    (r : PatchReplies) : Studio :=
  match s.patches[i]? with
  | none => s
  | some entry =>
    let w := writePatchBytes page s.target cfg r entry.address entry.patched entry
    let entry := if w.1 then { w.2.2 with applied := true } else w.2.2
    { s with target := w.2.1, patches := s.patches.set i entry }

def Studio.restorePatch (page : Nat) (s : Studio) (cfg : PatchSettings) (i : Nat)
    (r : PatchReplies) : Studio :=
  match s.patches[i]? with
  | none => s
  | some entry =>
    if entry.original = [] then s
    else
      let w := writePatchBytes page s.target cfg r entry.address entry.original entry
      let entry := if w.1 then { w.2.2 with applied := false } else w.2.2
      { s with target := w.2.1, patches := s.patches.set i entry }

def jmpBytes (caveAddr : Nat) : List UInt8 :=
  [0x48, 0xB8] ++ (List.range 8).map (fun i => UInt8.ofNat (caveAddr / 2 ^ (i * 8) % 256)) ++
    [0xFF, 0xE0]

def jmpLength : Nat := 12

def Studio.detourTarget (s : Studio) (targetInput : Option Nat) : Option Nat :=
  if s.cave.allocated = false ∨ s.cave.addr = 0 ∨ s.cave.shellcode = [] then none
  else targetInput.filter (· ≠ 0)

def Studio.installDetour (page : Nat) (s : Studio) (supportsProtect : Bool)
    (targetInput : Option Nat) (r : PatchReplies) : Studio :=
  match s.detourTarget targetInput with
  | none => s
  | some target =>
    let s := { s with caveTargetAddr := target }
    if r.read = false then s
    else
      let s := { s with caveOriginalTargetBytes := slice s.target.mem target jmpLength }
      if supportsProtect = false ∨ r.protect = false then s
      else
        let old := oldProtection page s.target target
        let t := processProtect page s.target target jmpLength protRw true
        let t := memoryWrite t target (jmpBytes s.cave.addr) r.write
        if r.write then
          { s with
            target := processProtect page t target jmpLength protRx true
            caveDetourActive := true }
        else { s with target := processProtect page t target jmpLength old true }

def Studio.removeDetour (page : Nat) (s : Studio) (r : PatchReplies) : Studio :=
  if s.caveDetourActive = false ∨ s.caveOriginalTargetBytes = [] then s
  else if r.protect = false then s
  else
    let t := processProtect page s.target s.caveTargetAddr jmpLength protRw true
    let t := memoryWrite t s.caveTargetAddr s.caveOriginalTargetBytes r.write
    if r.write then
      { s with
        target := processProtect page t s.caveTargetAddr jmpLength protRx true
        caveDetourActive := false }
    else { s with target := t }

inductive PatchOp where
  | capturePatch (form : PatchForm) (r : PatchReplies)
  | applyComposedPatch (cfg : PatchSettings) (form : PatchForm) (r : PatchReplies)
  | reapplyPatch (cfg : PatchSettings) (i : Nat) (r : PatchReplies)
  | restorePatch (cfg : PatchSettings) (i : Nat) (r : PatchReplies)
  | installDetour (supportsProtect : Bool) (targetInput : Option Nat) (r : PatchReplies)
  | removeDetour (r : PatchReplies)
deriving DecidableEq

def Studio.step (page : Nat) (s : Studio) : PatchOp → Studio
  | .capturePatch form r => s.capturePatch form r
  | .applyComposedPatch cfg form r => s.applyComposedPatch page cfg form r
  | .reapplyPatch cfg i r => s.reapplyPatch page cfg i r
  | .restorePatch cfg i r => s.restorePatch page cfg i r
  | .installDetour supportsProtect targetInput r =>
    s.installDetour page supportsProtect targetInput r
  | .removeDetour r => s.removeDetour page r

/-! ## Marks -/

def PatchEntry.mark (e : PatchEntry) : Option (Nat × Nat) :=
  if e.applied then some (e.address, e.patched.length) else none

def Studio.IsMark (s : Studio) (m : Nat × Nat) : Prop :=
  some m ∈ s.patches.map PatchEntry.mark ∨
    s.caveDetourActive = true ∧ m = (s.caveTargetAddr, jmpLength)

/-- An address of the cave. -/
def Cave.Has (c : Cave) (a : Nat) : Prop := c.allocated = true ∧ c.addr ≤ a ∧ a < c.addr + c.size

instance (c : Cave) (a : Nat) : Decidable (c.Has a) := inferInstanceAs (Decidable (_ ∧ _ ∧ _))

/-- A page of the cave. -/
def Cave.HasPage (page : Nat) (c : Cave) (p : Nat) : Prop :=
  c.allocated = true ∧ InPages page c.addr c.size p

def Studio.Free (s : Studio) (a : Nat) : Prop :=
  ¬ s.cave.Has a ∧ ∀ m, s.IsMark m → ¬ (m.1 ≤ a ∧ a < m.1 + m.2)

def Studio.FreePage (page : Nat) (s : Studio) (p : Nat) : Prop :=
  ¬ s.cave.HasPage page p ∧ ∀ m, s.IsMark m → ¬ InPages page m.1 m.2 p

def Studio.unmark (s : Studio) (i : Nat) (e : PatchEntry) : Studio :=
  { s with patches := s.patches.set i { e with applied := false } }

def Studio.unmarkDetour (s : Studio) : Studio := { s with caveDetourActive := false }

/-! ## When patches can be undone -/

def leftProtection (page : Nat) (t : Target) (cfg : PatchSettings) (r : PatchReplies)
    (address p : Nat) : Nat :=
  if protectedWrite cfg r then
    if restoresProtection page t cfg r address then oldProtection page t address else protRwx
  else t.prot p

def Studio.LeavesPages (page : Nat) (base : Target) (s : Studio) (cfg : PatchSettings)
    (r : PatchReplies) (address length : Nat) (behind : Studio) : Prop :=
  ∀ p, InPages page address length p → behind.FreePage page p →
    leftProtection page s.target cfg r address p = base.prot p

def PutsBack (base : Target) (address : Nat) (bytes : List UInt8) (behind : Studio) : Prop :=
  ∀ k, k < bytes.length → behind.Free (address + k) → bytes.getD k 0 = base.mem (address + k)

/-- An operation that takes a mark off puts back what was there first, as far as no other mark
covers it; one that fails to write leaves the protections as they were first; and a detour is not
moved while it is active.  For the bytes this is a matter of the order of captures and restores,
`putsBack`. -/
def Studio.Careful (page : Nat) (base : Target) (s : Studio) : PatchOp → Prop
  | .capturePatch _ _ => True
  | .applyComposedPatch cfg form r =>
    ∀ e, composePatchEntry s.target form r = some e → r.write = false →
      s.LeavesPages page base cfg r e.address e.patched.length s
  | .reapplyPatch cfg i r =>
    ∀ e, s.patches[i]? = some e → r.write = false →
      s.LeavesPages page base cfg r e.address e.patched.length s
  | .restorePatch cfg i r =>
    ∀ e, s.patches[i]? = some e →
      if r.write = true then
        PutsBack base e.address e.original (s.unmark i e) ∧
          s.LeavesPages page base cfg r e.address e.original.length (s.unmark i e)
      else s.LeavesPages page base cfg r e.address e.original.length s
  | .installDetour supportsProtect targetInput r =>
    ∀ target, s.detourTarget targetInput = some target →
      (s.caveDetourActive = true → target = s.caveTargetAddr) ∧
        (r.read = true → supportsProtect = true → r.protect = true → r.write = false →
          ∀ p, InPages page target jmpLength p → s.FreePage page p →
            oldProtection page s.target target = base.prot p)
  | .removeDetour r =>
    s.caveDetourActive = true → r.protect = true → r.write = true →
      PutsBack base s.caveTargetAddr s.caveOriginalTargetBytes s.unmarkDetour ∧
        ∀ p, InPages page s.caveTargetAddr jmpLength p → s.unmarkDetour.FreePage page p →
          protRx = base.prot p

/-- What is not marked is as it was first. -/
structure Studio.Restorable (s : Studio) (page : Nat) (s₀ : Studio) : Prop where
  bytes : ∀ a, s.Free a → s.target.mem a = s₀.target.mem a
  pages : ∀ p, s.FreePage page p → s.target.prot p = s₀.target.prot p
  lengths : ∀ e ∈ s.patches, e.original.length = e.patched.length
  detour : s.caveDetourActive = true → s.caveOriginalTargetBytes.length = jmpLength
  cave : s.cave = s₀.cave

/-- Nothing is marked, and each patch has as many original bytes as others. -/
structure Studio.Fresh (s : Studio) : Prop where
  unapplied : ∀ e ∈ s.patches, e.applied = false
  lengths : ∀ e ∈ s.patches, e.original.length = e.patched.length
  inactive : s.caveDetourActive = false

/-! ## Changes of a range -/

section Changes

variable {page address length a p : Nat} {t t' t'' : Target} {s₀ s s' : Studio}

structure ChangedIn (page address length : Nat) (t t' : Target) : Prop where
  mem : ∀ a, ¬ (address ≤ a ∧ a < address + length) → t'.mem a = t.mem a
  prot : ∀ p, ¬ InPages page address length p → t'.prot p = t.prot p

theorem ChangedIn.trans (h : ChangedIn page address length t t')
    (h' : ChangedIn page address length t' t'') : ChangedIn page address length t t'' where
  mem := fun a ha => (h'.mem a ha).trans (h.mem a ha)
  prot := fun p hp => (h'.prot p hp).trans (h.prot p hp)

theorem Studio.Free.of_marks (h : s'.Free a) (hcave : s'.cave = s.cave)
    (hmarks : ∀ m, s.IsMark m → s'.IsMark m) : s.Free a :=
  ⟨hcave ▸ h.1, fun m hm => h.2 m (hmarks m hm)⟩

theorem Studio.FreePage.of_marks (h : s'.FreePage page p) (hcave : s'.cave = s.cave)
    (hmarks : ∀ m, s.IsMark m → s'.IsMark m) : s.FreePage page p :=
  ⟨hcave ▸ h.1, fun m hm => h.2 m (hmarks m hm)⟩

theorem eq_of_change {ι β : Type*} {f f' g : ι → β} {free free' range : ι → Prop}
    (h : ∀ a, free a → f a = g a) (hfree : ∀ a, free' a → ¬ range a → free a)
    (hout : ∀ a, ¬ range a → f' a = f a) (hin : ∀ a, range a → free' a → f' a = g a) :
    ∀ a, free' a → f' a = g a := by
  intro a ha
  by_cases hrange : range a
  · exact hin a hrange ha
  · rw [hout a hrange, h a (hfree a ha hrange)]

theorem Studio.Restorable.change (h : s.Restorable page s₀)
    (htarget : ChangedIn page address length s.target s'.target) (hcave : s'.cave = s.cave)
    (hmarks : ∀ m, s.IsMark m → m = (address, length) ∨ s'.IsMark m)
    (hbytes : ∀ a, address ≤ a ∧ a < address + length → s'.Free a →
      s'.target.mem a = s₀.target.mem a)
    (hpages : ∀ p, InPages page address length p → s'.FreePage page p →
      s'.target.prot p = s₀.target.prot p)
    (hlengths : ∀ e ∈ s'.patches, e.original.length = e.patched.length)
    (hdetour : s'.caveDetourActive = true → s'.caveOriginalTargetBytes.length = jmpLength) :
    s'.Restorable page s₀ where
  bytes := by
    refine eq_of_change h.bytes (fun a hfree hout => ⟨hcave ▸ hfree.1, fun m hm => ?_⟩) htarget.mem
      hbytes
    rcases hmarks m hm with rfl | hm'
    · exact hout
    · exact hfree.2 m hm'
  pages := by
    refine eq_of_change h.pages (fun p hfree hout => ⟨hcave ▸ hfree.1, fun m hm => ?_⟩) htarget.prot
      hpages
    rcases hmarks m hm with rfl | hm'
    · exact hout
    · exact hfree.2 m hm'
  lengths := hlengths
  detour := hdetour
  cave := hcave.trans h.cave

theorem Studio.Restorable.marked (h : s.Restorable page s₀)
    (htarget : ChangedIn page address length s.target s'.target) (hcave : s'.cave = s.cave)
    (hmarks : ∀ m, s.IsMark m → m = (address, length) ∨ s'.IsMark m)
    (hmark : s'.IsMark (address, length))
    (hlengths : ∀ e ∈ s'.patches, e.original.length = e.patched.length)
    (hdetour : s'.caveDetourActive = true → s'.caveOriginalTargetBytes.length = jmpLength) :
    s'.Restorable page s₀ :=
  h.change htarget hcave hmarks (fun _ hin hfree => absurd hin (hfree.2 _ hmark))
    (fun _ hin hfree => absurd hin (hfree.2 _ hmark)) hlengths hdetour

theorem Studio.Restorable.pagesLeft (h : s.Restorable page s₀)
    (htarget : ChangedIn page address length s.target s'.target) (hcave : s'.cave = s.cave)
    (hmem : s'.target.mem = s.target.mem) (hmarks : ∀ m, s.IsMark m → s'.IsMark m)
    (hpages : ∀ p, InPages page address length p → s.FreePage page p →
      s'.target.prot p = s₀.target.prot p)
    (hlengths : ∀ e ∈ s'.patches, e.original.length = e.patched.length)
    (hdetour : s'.caveDetourActive = true → s'.caveOriginalTargetBytes.length = jmpLength) :
    s'.Restorable page s₀ := by
  refine h.change htarget hcave (fun m hm => .inr (hmarks m hm)) ?_ ?_ hlengths hdetour
  · intro a _ hfree
    rw [hmem]
    exact h.bytes a (hfree.of_marks hcave hmarks)
  · exact fun p hin hfree => hpages p hin (hfree.of_marks hcave hmarks)

theorem Studio.Restorable.remark (h : s.Restorable page s₀) (htarget : s'.target = s.target)
    (hcave : s'.cave = s.cave) (hmarks : ∀ m, s.IsMark m → s'.IsMark m)
    (hlengths : ∀ e ∈ s'.patches, e.original.length = e.patched.length)
    (hdetour : s'.caveDetourActive = true → s'.caveOriginalTargetBytes.length = jmpLength) :
    s'.Restorable page s₀ where
  bytes := by
    rw [htarget]
    exact fun a hfree => h.bytes a (hfree.of_marks hcave hmarks)
  pages := by
    rw [htarget]
    exact fun p hfree => h.pages p (hfree.of_marks hcave hmarks)
  lengths := hlengths
  detour := hdetour
  cave := hcave.trans h.cave

theorem PutsBack.eq {base : Target} {bytes : List UInt8} (h : PutsBack base address bytes s)
    (ha : address ≤ a ∧ a < address + bytes.length) (hfree : s.Free a) :
    bytes.getD (a - address) 0 = base.mem a := by
  have hput := h (a - address) (by omega)
  rw [Nat.add_sub_cancel' ha.1] at hput
  exact hput hfree

end Changes

/-! ## A write -/

section Write

variable {page address : Nat} {t : Target} {cfg : PatchSettings} {r : PatchReplies}
  {bytes : List UInt8} {entry e : PatchEntry}

@[simp] theorem memoryWrite_prot (t : Target) (address : Nat) (bytes : List UInt8) (ok : Bool) :
    (memoryWrite t address bytes ok).prot = t.prot := by
  rw [memoryWrite]
  split_ifs <;> rfl

theorem memoryWrite_changedIn (t : Target) {length : Nat} (hlength : bytes.length = length)
    (ok : Bool) : ChangedIn page address length t (memoryWrite t address bytes ok) := by
  subst hlength
  refine ⟨fun a ha => ?_, fun p _ => by rw [memoryWrite_prot]⟩
  rw [memoryWrite]
  split_ifs
  · exact if_neg ha
  · rfl

theorem memoryWrite_mem_of_mem {a : Nat} (h : address ≤ a ∧ a < address + bytes.length) :
    (memoryWrite t address bytes true).mem a = bytes.getD (a - address) 0 := if_pos h

@[simp] theorem processProtect_mem (page : Nat) (t : Target) (address length prot : Nat)
    (ok : Bool) : (processProtect page t address length prot ok).mem = t.mem := by
  rw [processProtect]
  split_ifs <;> rfl

theorem processProtect_prot_of_mem {length prot p : Nat} (h : InPages page address length p)
    (ok : Bool) :
    (processProtect page t address length prot ok).prot p = if ok then prot else t.prot p := by
  rw [processProtect]
  split_ifs
  · exact if_pos h
  · rfl

theorem processProtect_changedIn (t : Target) (length prot : Nat) (ok : Bool) :
    ChangedIn page address length t (processProtect page t address length prot ok) := by
  refine ⟨fun a _ => by rw [processProtect_mem], fun p hp => ?_⟩
  rw [processProtect]
  split_ifs
  · exact if_neg hp
  · rfl

theorem writePatchBytes_nil :
    writePatchBytes page t cfg r address [] entry = (false, t, entry) := if_pos rfl

theorem writePatchBytes_fst (hbytes : bytes ≠ []) :
    (writePatchBytes page t cfg r address bytes entry).1 = r.write := by
  rw [writePatchBytes, if_neg hbytes]

theorem writePatchBytes_target (hbytes : bytes ≠ []) :
    (writePatchBytes page t cfg r address bytes entry).2.1 =
      processProtect page
        (memoryWrite (processProtect page t address bytes.length protRwx (protectedWrite cfg r))
          address bytes r.write)
        address bytes.length (oldProtection page t address)
        (restoresProtection page t cfg r address) := by
  rw [writePatchBytes, if_neg hbytes]

theorem writePatchBytes_mem (hbytes : bytes ≠ []) :
    (writePatchBytes page t cfg r address bytes entry).2.1.mem =
      (memoryWrite t address bytes r.write).mem := by
  rw [writePatchBytes_target hbytes, processProtect_mem, memoryWrite, memoryWrite]
  split_ifs
  · rw [processProtect_mem]
  · rw [processProtect_mem]

theorem writePatchBytes_changedIn (hbytes : bytes ≠ []) :
    ChangedIn page address bytes.length t
      (writePatchBytes page t cfg r address bytes entry).2.1 := by
  rw [writePatchBytes_target hbytes]
  exact ((processProtect_changedIn _ _ _ _).trans (memoryWrite_changedIn _ rfl _)).trans
    (processProtect_changedIn _ _ _ _)

theorem writePatchBytes_prot_of_mem (hbytes : bytes ≠ []) {p : Nat}
    (h : InPages page address bytes.length p) :
    (writePatchBytes page t cfg r address bytes entry).2.1.prot p =
      leftProtection page t cfg r address p := by
  rw [writePatchBytes_target hbytes, processProtect_prot_of_mem h, memoryWrite_prot,
    processProtect_prot_of_mem h, leftProtection]
  by_cases hprotected : protectedWrite cfg r = true
  · rw [if_pos hprotected, if_pos hprotected]
  · have hrestore : ¬ restoresProtection page t cfg r address = true := by
      rw [restoresProtection, Bool.eq_false_iff.mpr hprotected]
      exact Bool.false_ne_true
    rw [if_neg hprotected, if_neg hprotected, if_neg hrestore]

theorem writePatchBytes_entry (page : Nat) (t : Target) (cfg : PatchSettings) (r : PatchReplies)
    (address : Nat) (bytes : List UInt8) (entry : PatchEntry) :
    ∃ old new has, (writePatchBytes page t cfg r address bytes entry).2.2 =
      { entry with originalProtection := old, appliedProtection := new, hasProtection := has } := by
  rw [writePatchBytes]
  by_cases hbytes : bytes = []
  · rw [if_pos hbytes]
    exact ⟨_, _, _, rfl⟩
  · rw [if_neg hbytes]
    dsimp only
    split_ifs
    · exact ⟨_, _, _, rfl⟩
    · exact ⟨_, _, _, rfl⟩

theorem composePatchEntry_some {form : PatchForm} (h : composePatchEntry t form r = some e) :
    e.patched ≠ [] ∧ e.original.length = e.patched.length := by
  obtain ⟨a, -, h⟩ := Option.bind_eq_some_iff.mp h
  obtain ⟨patched, -, h⟩ := Option.bind_eq_some_iff.mp h
  obtain ⟨original, hread, rfl⟩ := Option.map_eq_some_iff.mp h
  rw [readPatchOriginal] at hread
  split_ifs at hread with hlength hok
  obtain rfl := Option.some.inj hread
  exact ⟨fun hnil => hlength (.inl (length_eq_zero_iff.mpr hnil)), length_slice _ _ _⟩

end Write

/-! ## Marks of the list -/

section Marks

variable {s : Studio} {e x : PatchEntry} {i : Nat} {m : Nat × Nat}

theorem isMark_append :
    ({ s with patches := s.patches ++ [e] } : Studio).IsMark m ↔ s.IsMark m ∨ e.mark = some m := by
  simp only [Studio.IsMark, map_append, map_cons, map_nil, mem_append,
    mem_singleton, eq_comm (a := e.mark)]
  exact or_right_comm

theorem isMark_set (h : s.patches[i]? = some e) (hmark : x.mark = e.mark) :
    ({ s with patches := s.patches.set i x } : Studio).IsMark m ↔ s.IsMark m := by
  have hmap : (s.patches.set i x).map PatchEntry.mark = s.patches.map PatchEntry.mark := by
    obtain ⟨hi, rfl⟩ := List.getElem?_eq_some_iff.mp h
    rw [map_set, hmark, ← getElem_map PatchEntry.mark (h := by simpa using hi),
      set_getElem_self]
  rw [Studio.IsMark, Studio.IsMark, hmap]

theorem isMark_set_congr {y : PatchEntry} (hmark : x.mark = y.mark) :
    ({ s with patches := s.patches.set i x } : Studio).IsMark m ↔
      ({ s with patches := s.patches.set i y } : Studio).IsMark m := by
  rw [Studio.IsMark, Studio.IsMark, map_set, map_set, hmark]

theorem isMark_set_self (h : s.patches[i]? = some e) (hmark : x.mark = some m) :
    ({ s with patches := s.patches.set i x } : Studio).IsMark m := by
  obtain ⟨hi, -⟩ := List.getElem?_eq_some_iff.mp h
  exact .inl (mem_map.mpr ⟨x, mem_set hi x, hmark⟩)

theorem isMark_set_of_isMark (h : s.patches[i]? = some e) (x : PatchEntry) (hm : s.IsMark m) :
    e.mark = some m ∨ ({ s with patches := s.patches.set i x } : Studio).IsMark m := by
  rcases hm with hm | hm
  · obtain ⟨e', he', hmark⟩ := mem_map.mp hm
    obtain ⟨j, hj⟩ := mem_iff_getElem?.mp he'
    by_cases hij : i = j
    · obtain rfl : e = e' := Option.some.inj (h.symm.trans (hij ▸ hj))
      exact .inl hmark
    · refine .inr (.inl (mem_map.mpr ⟨e', ?_, hmark⟩))
      exact mem_iff_getElem?.mpr ⟨j, by rw [getElem?_set_ne hij, hj]⟩
  · exact .inr (.inr hm)

end Marks

/-! ## The operations on patches -/

section Patches

variable {page : Nat} {s₀ s : Studio} {cfg : PatchSettings} {r : PatchReplies} {form : PatchForm}
  {e : PatchEntry} {i : Nat}

theorem forall_mem_append (h : ∀ x ∈ s.patches, x.original.length = x.patched.length)
    (he : e.original.length = e.patched.length) :
    ∀ x ∈ s.patches ++ [e], x.original.length = x.patched.length := by
  intro x hx
  rcases mem_append.mp hx with hx | hx
  · exact h x hx
  · rwa [mem_singleton.mp hx]

theorem forall_mem_set (h : ∀ x ∈ s.patches, x.original.length = x.patched.length)
    (he : e.original.length = e.patched.length) :
    ∀ x ∈ s.patches.set i e, x.original.length = x.patched.length := by
  intro x hx
  rcases mem_or_eq_of_mem_set hx with hx | rfl
  · exact h x hx
  · exact he

theorem Studio.Restorable.failedWrite (h : s.Restorable page s₀) {address : Nat}
    {bytes : List UInt8} (hbytes : bytes ≠ []) (hwrite : r.write = false)
    (hleft : s.LeavesPages page s₀.target cfg r address bytes.length s) {patches : List PatchEntry}
    (hmarks : ∀ m, s.IsMark m → ({ s with patches := patches } : Studio).IsMark m)
    (hlengths : ∀ x ∈ patches, x.original.length = x.patched.length) :
    ({ s with
        target := (writePatchBytes page s.target cfg r address bytes e).2.1
        patches := patches } : Studio).Restorable page s₀ := by
  refine h.pagesLeft (writePatchBytes_changedIn hbytes) rfl ?_ hmarks
    (fun p hin hfree => ?_) hlengths
    h.detour
  · rw [writePatchBytes_mem hbytes, hwrite]
    rfl
  · rw [writePatchBytes_prot_of_mem hbytes hin]
    exact hleft p hin hfree

theorem mark_applied (e : PatchEntry) (old new : Nat) (has : Bool) :
    ({ e with
        originalProtection := old
        appliedProtection := new
        hasProtection := has
        applied := true } : PatchEntry).mark = some (e.address, e.patched.length) := rfl

theorem mark_protected (e : PatchEntry) (old new : Nat) (has : Bool) :
    ({ e with
        originalProtection := old
        appliedProtection := new
        hasProtection := has } : PatchEntry).mark = e.mark := rfl

theorem mark_eq_some {m : Nat × Nat} (h : e.mark = some m) : m = (e.address, e.patched.length) := by
  rw [PatchEntry.mark] at h
  split_ifs at h
  exact (Option.some.inj h).symm

theorem mark_of_not_applied (h : e.applied = false) : e.mark = none := by
  rw [PatchEntry.mark, if_neg (by simp [h])]

theorem Studio.Restorable.capturePatch (h : s.Restorable page s₀) :
    (s.capturePatch form r).Restorable page s₀ := by
  rw [Studio.capturePatch]
  cases hcompose : composePatchEntry s.target form r with
  | none => exact h
  | some e =>
    obtain ⟨-, hlength⟩ := composePatchEntry_some hcompose
    exact h.remark rfl rfl (fun m hm => isMark_append.mpr (.inl hm))
      (forall_mem_append h.lengths hlength) h.detour

theorem Studio.Restorable.applyComposedPatch (h : s.Restorable page s₀)
    (hcareful : s.Careful page s₀.target (.applyComposedPatch cfg form r)) :
    (s.applyComposedPatch page cfg form r).Restorable page s₀ := by
  rw [Studio.applyComposedPatch]
  cases hcompose : composePatchEntry s.target form r with
  | none => exact h
  | some e =>
    obtain ⟨hbytes, hlength⟩ := composePatchEntry_some hcompose
    obtain ⟨old, new, has, hentry⟩ :=
      writePatchBytes_entry page s.target cfg r e.address e.patched e
    dsimp only
    rw [writePatchBytes_fst hbytes, hentry]
    split_ifs with hwrite
    · exact h.marked (writePatchBytes_changedIn hbytes) rfl
        (fun m hm => .inr (isMark_append.mpr (.inl hm)))
        (isMark_append.mpr (.inr (mark_applied e old new has)))
          (forall_mem_append h.lengths hlength)
        h.detour
    · rw [Bool.not_eq_true] at hwrite
      exact h.failedWrite hbytes hwrite (hcareful e hcompose hwrite) (fun _ hm => hm) h.lengths

theorem Studio.Restorable.reapplyPatch (h : s.Restorable page s₀)
    (hcareful : s.Careful page s₀.target (.reapplyPatch cfg i r)) :
    (s.reapplyPatch page cfg i r).Restorable page s₀ := by
  rw [Studio.reapplyPatch]
  cases hget : s.patches[i]? with
  | none => exact h
  | some e =>
    have hlength := h.lengths e (mem_of_getElem? hget)
    dsimp only
    by_cases hbytes : e.patched = []
    · rw [hbytes, writePatchBytes_nil]
      exact h.remark rfl rfl (fun m => (isMark_set hget rfl).mpr) (forall_mem_set h.lengths hlength)
        h.detour
    obtain ⟨old, new, has, hentry⟩ :=
      writePatchBytes_entry page s.target cfg r e.address e.patched e
    rw [writePatchBytes_fst hbytes, hentry]
    split_ifs with hwrite
    · exact h.marked (writePatchBytes_changedIn hbytes) rfl
        (fun m hm => (isMark_set_of_isMark hget _ hm).imp_left mark_eq_some)
        (isMark_set_self hget (mark_applied e old new has))
          (forall_mem_set h.lengths hlength) h.detour
    · rw [Bool.not_eq_true] at hwrite
      exact h.failedWrite hbytes hwrite (hcareful e hget hwrite)
        (fun m => (isMark_set hget (mark_protected e old new has)).mpr)
        (forall_mem_set h.lengths hlength)

theorem Studio.Restorable.restorePatch (h : s.Restorable page s₀)
    (hcareful : s.Careful page s₀.target (.restorePatch cfg i r)) :
    (s.restorePatch page cfg i r).Restorable page s₀ := by
  rw [Studio.restorePatch]
  cases hget : s.patches[i]? with
  | none => exact h
  | some e =>
    have hlength := h.lengths e (mem_of_getElem? hget)
    have hcareful := hcareful e hget
    dsimp only
    by_cases hbytes : e.original = []
    · rw [if_pos hbytes]
      exact h
    obtain ⟨old, new, has, hentry⟩ :=
      writePatchBytes_entry page s.target cfg r e.address e.original e
    rw [if_neg hbytes, writePatchBytes_fst hbytes, hentry]
    by_cases hwrite : r.write = true
    swap
    · rw [if_neg hwrite] at hcareful ⊢
      rw [Bool.not_eq_true] at hwrite
      exact h.failedWrite hbytes hwrite hcareful
        (fun m => (isMark_set hget (mark_protected e old new has)).mpr)
        (forall_mem_set h.lengths hlength)
    rw [if_pos hwrite] at hcareful ⊢
    obtain ⟨hback, hleft⟩ := hcareful
    -- the patch has no mark, whatever its protections
    have hmarks (m : Nat × Nat) : (s.unmark i e).IsMark m ↔ ({ s with
        patches := s.patches.set i
          { e with
            originalProtection := old
            appliedProtection := new
            hasProtection := has
            applied := false } } : Studio).IsMark m := isMark_set_congr rfl
    refine h.change (writePatchBytes_changedIn hbytes) rfl ?_ ?_ ?_
      (forall_mem_set h.lengths hlength)
      h.detour
    · intro m hm
      rw [hlength]
      exact (isMark_set_of_isMark hget _ hm).imp_left mark_eq_some
    · intro a hin hfree
      rw [writePatchBytes_mem hbytes, hwrite, memoryWrite_mem_of_mem hin]
      exact hback.eq hin (hfree.of_marks rfl fun m => (hmarks m).mp)
    · intro p hin hfree
      rw [writePatchBytes_prot_of_mem hbytes hin]
      exact hleft p hin (hfree.of_marks rfl fun m => (hmarks m).mp)

end Patches

/-! ## The detour -/

section Detour

variable {page : Nat} {s₀ s : Studio} {r : PatchReplies}

theorem length_jmpBytes (caveAddr : Nat) : (jmpBytes caveAddr).length = jmpLength := by
  simp [jmpBytes, jmpLength]

theorem isMark_aim {target : Nat} (bytes : List UInt8)
    (htarget : s.caveDetourActive = true → target = s.caveTargetAddr) (m : Nat × Nat) :
    ({ s with caveTargetAddr := target, caveOriginalTargetBytes := bytes } : Studio).IsMark m ↔
      s.IsMark m := by
  refine or_congr Iff.rfl (and_congr_right fun hactive => ?_)
  rw [htarget hactive]

theorem detour_changedIn (t : Target) (address : Nat) {bytes : List UInt8}
    (hbytes : bytes.length = jmpLength) (ok : Bool) (prot : Nat) :
    ChangedIn page address jmpLength t
      (processProtect page
        (memoryWrite (processProtect page t address jmpLength protRw true) address
        bytes ok) address jmpLength prot true) :=
  ((processProtect_changedIn _ _ _ _).trans (memoryWrite_changedIn _ hbytes _)).trans
    (processProtect_changedIn _ _ _ _)

theorem Studio.Restorable.installDetour (h : s.Restorable page s₀) {supportsProtect : Bool}
    {targetInput : Option Nat}
    (hcareful : s.Careful page s₀.target (.installDetour supportsProtect targetInput r)) :
    (s.installDetour page supportsProtect targetInput r).Restorable page s₀ := by
  rw [Studio.installDetour]
  cases hdetour : s.detourTarget targetInput with
  | none => exact h
  | some target =>
    obtain ⟨hsame, hleft⟩ := hcareful target hdetour
    dsimp only
    have haimed (bytes : List UInt8)
      (hbytes : s.caveDetourActive = true → bytes.length = jmpLength) :
        ({ s with caveTargetAddr := target, caveOriginalTargetBytes := bytes } : Studio).Restorable
          page s₀ := h.remark rfl rfl (fun m => (isMark_aim bytes hsame m).mpr) h.lengths hbytes
    by_cases hread : r.read = false
    · rw [if_pos hread]
      exact haimed _ h.detour
    have haimed := haimed (slice s.target.mem target jmpLength) fun _ => length_slice _ _ _
    rw [if_neg hread]
    by_cases hprotect : supportsProtect = false ∨ r.protect = false
    · rw [if_pos hprotect]
      exact haimed
    rw [if_neg hprotect]
    by_cases hwrite : r.write = true
    · -- the detour is active
      rw [if_pos hwrite]
      refine haimed.marked (detour_changedIn _ _ (length_jmpBytes _) _ _) rfl ?_ (.inr ⟨rfl, rfl⟩)
        h.lengths fun _ => length_slice _ _ _
      rintro m (hm | ⟨-, rfl⟩)
      · exact .inr (.inl hm)
      · exact .inl rfl
    · -- the protection is put back
      rw [if_neg hwrite]
      rw [Bool.not_eq_true] at hwrite
      obtain ⟨hsupports, hprotect⟩ := not_or.mp hprotect
      rw [Bool.not_eq_false] at hread hsupports hprotect
      refine haimed.pagesLeft (detour_changedIn _ _ (length_jmpBytes _) _ _) rfl ?_
        (fun _ hm => hm) ?_
        h.lengths fun _ => length_slice _ _ _
      · rw [processProtect_mem, hwrite]
        exact processProtect_mem page s.target target jmpLength protRw true
      · intro p hin hfree
        rw [processProtect_prot_of_mem hin, if_pos rfl]
        exact hleft hread hsupports hprotect hwrite p hin
          (hfree.of_marks rfl fun m => (isMark_aim _ hsame m).mpr)

theorem Studio.Restorable.removeDetour (h : s.Restorable page s₀)
    (hcareful : s.Careful page s₀.target (.removeDetour r)) :
    (s.removeDetour page r).Restorable page s₀ := by
  rw [Studio.removeDetour]
  by_cases hnone : s.caveDetourActive = false ∨ s.caveOriginalTargetBytes = []
  · rw [if_pos hnone]
    exact h
  rw [if_neg hnone]
  by_cases hprotect : r.protect = false
  · rw [if_pos hprotect]
    exact h
  rw [if_neg hprotect]
  have hactive : s.caveDetourActive = true := Bool.not_eq_false _ ▸ (not_or.mp hnone).1
  have hlength := h.detour hactive
  dsimp only
  by_cases hwrite : r.write = true
  · rw [if_pos hwrite]
    obtain ⟨hback, hleft⟩ := hcareful hactive (Bool.not_eq_false _ ▸ hprotect) hwrite
    refine h.change (detour_changedIn _ _ hlength _ _) rfl ?_ ?_ ?_ h.lengths
      (fun hfalse => absurd hfalse Bool.false_ne_true)
    · rintro m (hm | ⟨-, rfl⟩)
      · exact .inr (.inl hm)
      · exact .inl rfl
    · intro a hin hfree
      rw [← hlength] at hin
      rw [processProtect_mem, hwrite, memoryWrite_mem_of_mem hin]
      exact hback.eq hin hfree
    · intro p hin hfree
      rw [processProtect_prot_of_mem hin, if_pos rfl]
      exact hleft p hin hfree
  · -- the detour stays active
    rw [if_neg hwrite]
    exact h.marked
      ((processProtect_changedIn _ _ _ _).trans (memoryWrite_changedIn _ hlength _)) rfl
      (fun m hm => .inr hm) (.inr ⟨hactive, rfl⟩) h.lengths h.detour

end Detour

/-! ## The result -/

theorem Studio.Restorable.step {page : Nat} {s₀ s : Studio} {op : PatchOp}
    (h : s.Restorable page s₀) (hcareful : s.Careful page s₀.target op) :
    (s.step page op).Restorable page s₀ := by
  cases op with
  | capturePatch form r => exact h.capturePatch
  | applyComposedPatch cfg form r => exact h.applyComposedPatch hcareful
  | reapplyPatch cfg i r => exact h.reapplyPatch hcareful
  | restorePatch cfg i r => exact h.restorePatch hcareful
  | installDetour supportsProtect targetInput r => exact h.installDetour hcareful
  | removeDetour r => exact h.removeDetour hcareful

theorem Studio.Fresh.restorable {s : Studio} (h : s.Fresh) (page : Nat) : s.Restorable page s where
  bytes := fun _ _ => rfl
  pages := fun _ _ => rfl
  lengths := h.lengths
  detour := fun hactive => absurd (h.inactive.symm.trans hactive) Bool.false_ne_true
  cave := rfl

/-- What was captured puts the first bytes back if no address that was covered at the capture has
come free since: of patches that overlap, the one that was captured last is restored first. -/
theorem Studio.Restorable.putsBack {page : Nat} {s₀ s behind : Studio} (h : s.Restorable page s₀)
    (address length : Nat)
    (horder : ∀ k, k < length → behind.Free (address + k) → s.Free (address + k)) :
    PutsBack s₀.target address (slice s.target.mem address length) behind := by
  intro k hk hfree
  rw [length_slice] at hk
  rw [getD_slice _ hk]
  exact h.bytes _ (horder k hk hfree)

/-- Nothing is marked. -/
structure Studio.Unmarked (s : Studio) : Prop where
  unapplied : ∀ e ∈ s.patches, e.applied = false
  inactive : s.caveDetourActive = false

theorem Studio.Unmarked.not_isMark {s : Studio} (h : s.Unmarked) (m : Nat × Nat) :
    ¬ s.IsMark m := by
  rintro (hm | ⟨hactive, -⟩)
  · obtain ⟨e, he, hmark⟩ := mem_map.mp hm
    rw [mark_of_not_applied (h.unapplied e he)] at hmark
    cases hmark
  · exact absurd (h.inactive.symm.trans hactive) Bool.false_ne_true

/-- In a run of careful operations all patches and the detour are undone where none is marked: each
byte and each protection outside the cave is what it was before the first operation. -/
theorem undo_exact {page : Nat} {s₀ s : Studio} {ops : List PatchOp} (hfresh : s₀.Fresh)
    (hrun : Run (fun s op => some (s.step page op))
    (fun s op => s.Careful page s₀.target op) s₀ ops s)
    (hunmarked : s.Unmarked) :
    (∀ a, ¬ s₀.cave.Has a → s.target.mem a = s₀.target.mem a) ∧
      ∀ p, ¬ s₀.cave.HasPage page p → s.target.prot p = s₀.target.prot p := by
  have h : s.Restorable page s₀ := by
    refine Run.invariant (P := fun s => s.Restorable page s₀) ?_ hrun (hfresh.restorable page)
    rintro u op u' hu hcareful hstep
    obtain rfl := Option.some.inj hstep
    exact hu.step hcareful
  constructor
  · intro a ha
    exact h.bytes a ⟨h.cave ▸ ha, fun m hm => absurd hm (hunmarked.not_isMark m)⟩
  · intro p hp
    exact h.pages p ⟨h.cave ▸ hp, fun m hm => absurd hm (hunmarked.not_isMark m)⟩

def nopStudio : Studio where
  target := ⟨fun _ => 0x90, fun _ => protRx⟩
  patches := []
  cave := ⟨0x100000, 0x1000, true, [0xC3]⟩
  caveTargetAddr := 0
  caveOriginalTargetBytes := []
  caveDetourActive := false

theorem fresh_nopStudio : nopStudio.Fresh where
  unapplied := by simp [nopStudio]
  lengths := by simp [nopStudio]
  inactive := rfl

theorem unmarked_nopStudio : nopStudio.Unmarked where
  unapplied := fresh_nopStudio.unapplied
  inactive := rfl

def patchAndRestore : List PatchOp :=
  [.applyComposedPatch ⟨true, true, true⟩ ⟨some 0x4000, none, 2, 1⟩ ⟨true, true, true⟩,
    .restorePatch ⟨true, true, true⟩ 0 ⟨true, true, true⟩]

theorem undo_exact_patchAndRestore :
    (patchAndRestore.foldl (Studio.step 4096) nopStudio).target.mem 0x4000 = 0x90 := by
  have hrun : Run (fun s op => some (Studio.step 4096 s op))
      (fun s op => s.Careful 4096 nopStudio.target op) nopStudio patchAndRestore
      (patchAndRestore.foldl (Studio.step 4096) nopStudio) := by
    refine .cons ?_ rfl (.cons ?_ rfl (.nil _))
    · intro e _ hwrite
      cases hwrite
    · intro e he
      obtain rfl : ⟨0x4000, [0x90], [0xCC], true, protRx, protRwx, true⟩ = e := Option.some.inj he
      rw [if_pos rfl]
      constructor
      · refine (fresh_nopStudio.restorable 4096).putsBack 0x4000 1 fun k _ hfree => ?_
        exact hfree.of_marks rfl fun m hm => absurd hm (unmarked_nopStudio.not_isMark m)
      · intro p _ _
        rw [leftProtection, if_pos (by decide), if_pos (by decide)]
        exact show oldProtection 4096 _ _ = protRx by decide
  exact (undo_exact fresh_nopStudio hrun ⟨by decide, rfl⟩).1 0x4000 (by decide)

/-- Two patches that overlap, restored in the order in which they were applied: the second one has
taken a byte of the first for what was there. -/
def restoreInOrder : List PatchOp :=
  [.applyComposedPatch ⟨true, true, true⟩ ⟨some 0x4000, none, 2, 2⟩ ⟨true, true, true⟩,
    .applyComposedPatch ⟨true, true, true⟩ ⟨some 0x4001, none, 2, 2⟩ ⟨true, true, true⟩,
    .restorePatch ⟨true, true, true⟩ 0 ⟨true, true, true⟩,
    .restorePatch ⟨true, true, true⟩ 1 ⟨true, true, true⟩]

theorem undo_restoreInOrder :
    nopStudio.Fresh ∧ (restoreInOrder.foldl (Studio.step 4096) nopStudio).Unmarked ∧
      ¬ nopStudio.cave.Has 0x4001 ∧
      (restoreInOrder.foldl (Studio.step 4096) nopStudio).target.mem 0x4001 ≠
        nopStudio.target.mem 0x4001 :=
  ⟨fresh_nopStudio, ⟨by decide, rfl⟩, by decide, by decide⟩

end MemDbg.Frontend
