import Mathlib.Algebra.Group.Action.Defs
import Mathlib.Algebra.Order.BigOperators.Group.List
import MemDbg.Daemon.MemoryHandlers

/-!
# The stack walk

`PROCESS_STACK` follows the saved frame pointers of a thread.  What it is for is the chain of
frames: they go upward, each can be read, and there is none behind the last.  The bytes of
all frames come in one blob, which the frames point into.
-/

namespace MemDbg.Daemon.Dispatch

open List Lib Wire Wire.Reply

/-! ## The walk -/

structure TargetRead where
  read : Nat → Nat → Option (List UInt8)
  length_le : ∀ {addr len bytes}, read addr len = some bytes → bytes.length ≤ len

structure StackLimits where
  maxFrames : Nat
  maxFrameBytes : Nat
  codeWindow : Nat
deriving DecidableEq

def StackLimits.blobCapacity (lim : StackLimits) : Nat :=
  lim.maxFrames * (lim.maxFrameBytes + lim.codeWindow)

def StackLimits.scratchSize (lim : StackLimits) : Nat :=
  if lim.codeWindow < lim.maxFrameBytes then lim.maxFrameBytes else lim.codeWindow

structure StackFrame where
  framePointer : Nat
  savedFramePointer : Nat
  returnAddress : Nat
  stackAddress : Nat
  codeAddress : Nat
  stackSize : Nat
  codeSize : Nat
  stackDataOffset : Nat
  codeDataOffset : Nat
deriving DecidableEq

structure StackWalk where
  frames : List StackFrame
  truncated : Bool
  blob : List UInt8
  scratchReads : List Nat
deriving DecidableEq

section Walk

variable (mem : TargetRead) (lim : StackLimits)

def stackReadBestEffort (address length : Nat) : List UInt8 :=
  if length = 0 then [] else (mem.read address length).getD []

def stackAppendBlob (blobCapacity : Nat) (blob data : List UInt8) : Option (List UInt8) :=
  if data = [] then some blob
  else if blobCapacity - blob.length < data.length then none
  else some (blob ++ data)

def readPair (fp : Nat) : Option (Nat × Nat) :=
  match mem.read fp 16 with
  | none => none
  | some bytes =>
    if bytes.length ≠ 16 then none else some (leNat (bytes.take 8), leNat (bytes.drop 8))

def stackSpan (first : Bool) (sp fp saved : Nat) : Nat × Nat :=
  if first = true ∧ sp ≠ 0 ∧ sp < fp then (sp, min (wrap64 (fp - sp + 16)) lim.maxFrameBytes)
  else if fp < saved then (fp, max (min (saved - fp) lim.maxFrameBytes) 16)
  else (fp, 16)

def codeAddress (ret : Nat) : Nat := if 10 < ret then ret - 10 else ret

def stackStep (first : Bool) (sp fp : Nat) (pair : Nat × Nat) (blob : List UInt8) :
    Option StackFrame × List UInt8 × List Nat :=
  let span := stackSpan lim first sp fp pair.1
  let gotStack := stackReadBestEffort mem span.1 span.2
  match stackAppendBlob lim.blobCapacity blob gotStack with
  | none => (none, blob, [span.2])
  | some blob' =>
    if pair.2 ≠ 0 ∧ lim.codeWindow ≠ 0 then
      let gotCode := stackReadBestEffort mem (codeAddress pair.2) lim.codeWindow
      match stackAppendBlob lim.blobCapacity blob' gotCode with
      | none => (none, blob', [span.2, lim.codeWindow])
      | some blob'' =>
        (some ⟨fp, pair.1, pair.2, span.1, codeAddress pair.2, gotStack.length, gotCode.length,
          blob.length, blob'.length⟩, blob'', [span.2, lim.codeWindow])
    else (some ⟨fp, pair.1, pair.2, span.1, 0, gotStack.length, 0, blob.length, 0⟩, blob',
      [span.2])

def stackWalkLoop : Nat → Bool → Nat → Nat → List UInt8 → StackWalk
  | 0, _, _, _, blob => ⟨[], false, blob, []⟩
  | n + 1, first, sp, fp, blob =>
    if fp = 0 then ⟨[], false, blob, []⟩
    else
      match readPair mem fp with
      | none => ⟨[], false, blob, []⟩
      | some pair =>
        let step := stackStep mem lim first sp fp pair blob
        match step.1 with
        | none => ⟨[], true, step.2.1, step.2.2⟩
        | some fr =>
          if pair.1 ≤ fp then ⟨[], false, step.2.1, step.2.2⟩
          else
            let rest := stackWalkLoop n false (wrap64 (fp + 16)) pair.1 step.2.1
            ⟨fr :: rest.frames, rest.truncated, rest.blob, step.2.2 ++ rest.scratchReads⟩

def stackWalk (fp sp : Nat) : StackWalk := stackWalkLoop mem lim lim.maxFrames true sp fp []

end Walk

/-! ## The chain of frames -/

structure ChainFrame where
  framePointer : Nat
  savedFramePointer : Nat
  returnAddress : Nat
  stackAddress : Nat
  stackLength : Nat
deriving DecidableEq

section Chain

variable (mem : TargetRead) (lim : StackLimits)

def frameOf (first : Bool) (sp fp : Nat) (pair : Nat × Nat) : ChainFrame where
  framePointer := fp
  savedFramePointer := pair.1
  returnAddress := pair.2
  stackAddress := (stackSpan lim first sp fp pair.1).1
  stackLength := (stackSpan lim first sp fp pair.1).2

def frameChain : Nat → Nat → Nat → List ChainFrame
  | 0, _, _ => []
  | n + 1, sp, fp =>
    match readPair mem fp with
    | none => []
    | some pair =>
      frameOf lim true sp fp pair :: if fp < pair.1 then frameChain n 0 pair.1 else []

namespace ChainFrame

variable (c : ChainFrame)

def stackBytes : List UInt8 := stackReadBestEffort mem c.stackAddress c.stackLength

def codeBytes : List UInt8 :=
  if c.returnAddress ≠ 0 ∧ lim.codeWindow ≠ 0 then
    stackReadBestEffort mem (codeAddress c.returnAddress) lim.codeWindow
  else []

def bytes : List UInt8 := c.stackBytes mem ++ c.codeBytes mem lim

def reads : List Nat :=
  if c.returnAddress ≠ 0 ∧ lim.codeWindow ≠ 0 then [c.stackLength, lim.codeWindow]
  else [c.stackLength]

def answer (offset : Nat) : StackFrame where
  framePointer := c.framePointer
  savedFramePointer := c.savedFramePointer
  returnAddress := c.returnAddress
  stackAddress := c.stackAddress
  codeAddress :=
    if c.returnAddress ≠ 0 ∧ lim.codeWindow ≠ 0 then codeAddress c.returnAddress else 0
  stackSize := (c.stackBytes mem).length
  codeSize := (c.codeBytes mem lim).length
  stackDataOffset := offset
  codeDataOffset := if c.returnAddress ≠ 0 ∧ lim.codeWindow ≠ 0 then
    offset + (c.stackBytes mem).length else 0

end ChainFrame

structure StackFrame.Shows (blob : List UInt8) (fr : StackFrame) (c : ChainFrame) : Prop where
  framePointer : fr.framePointer = c.framePointer
  savedFramePointer : fr.savedFramePointer = c.savedFramePointer
  returnAddress : fr.returnAddress = c.returnAddress
  stackAddress : fr.stackAddress = c.stackAddress
  stackSize : fr.stackSize = (c.stackBytes mem).length
  stackData : (blob.drop fr.stackDataOffset).take fr.stackSize = c.stackBytes mem
  codeSize : fr.codeSize = (c.codeBytes mem lim).length
  codeData : (blob.drop fr.codeDataOffset).take fr.codeSize = c.codeBytes mem lim

structure StackWalk.Faithful (w : StackWalk) (fp sp : Nat) : Prop where
  shows : List.Forall₂ (StackFrame.Shows mem lim w.blob) w.frames
    (frameChain mem lim lim.maxFrames sp fp)
  bounded : ∀ len ∈ w.scratchReads, len ≤ lim.scratchSize

def chainBytes (chain : List ChainFrame) : List UInt8 := chain.flatMap (·.bytes mem lim)

/-- The chain does not end at a frame that goes downward, its bytes fit into the blob, and the
bytes of each frame fit into the scratch buffer. -/
structure ChainFits (fp sp : Nat) : Prop where
  upward : ∀ c ∈ frameChain mem lim lim.maxFrames sp fp, c.framePointer < c.savedFramePointer
  capacity : (chainBytes mem lim (frameChain mem lim lim.maxFrames sp fp)).length ≤
    lim.blobCapacity
  scratch : ∀ c ∈ frameChain mem lim lim.maxFrames sp fp, c.stackLength ≤ lim.scratchSize

end Chain

/-! ## The walk against the chain -/

section Loop

variable {mem : TargetRead} {lim : StackLimits}

theorem stackAppendBlob_eq {cap : Nat} {blob data : List UInt8} (hblob : blob.length ≤ cap) :
    stackAppendBlob cap blob data =
      if (blob ++ data).length ≤ cap then some (blob ++ data) else none := by
  rw [stackAppendBlob, length_append]
  by_cases hdata : data = []
  · rw [if_pos hdata, hdata, append_nil, length_nil, if_pos (by omega)]
  by_cases hfull : cap - blob.length < data.length
  · rw [if_neg hdata, if_pos hfull, if_neg (by omega)]
  · rw [if_neg hdata, if_neg hfull, if_pos (by omega)]

theorem stackSpan_eq (first : Bool) (sp fp saved : Nat) :
    stackSpan lim first sp fp saved = stackSpan lim true (if first then sp else 0) fp saved := by
  cases first
  · simp [stackSpan]
  · rfl

theorem stackStep_eq (first : Bool) (sp fp : Nat) (pair : Nat × Nat) {blob : List UInt8}
    (hblob : blob.length ≤ lim.blobCapacity) :
    let c := frameOf lim first sp fp pair
    ((blob ++ c.bytes mem lim).length ≤ lim.blobCapacity →
      stackStep mem lim first sp fp pair blob =
        (some (c.answer mem lim blob.length), blob ++ c.bytes mem lim, c.reads lim)) ∧
    (lim.blobCapacity < (blob ++ c.bytes mem lim).length →
      (stackStep mem lim first sp fp pair blob).1 = none) := by
  dsimp only
  generalize hc : frameOf lim first sp fp pair = c
  obtain ⟨fp, saved, ret, address, length⟩ := c
  obtain ⟨rfl, rfl, rfl, rfl, rfl⟩ := ChainFrame.mk.inj hc
  rw [stackStep, ChainFrame.bytes, ChainFrame.stackBytes, ChainFrame.codeBytes,
    ChainFrame.reads, ChainFrame.answer, ChainFrame.stackBytes, ChainFrame.codeBytes]
  generalize stackReadBestEffort mem (stackSpan lim first sp fp pair.1).1
    (stackSpan lim first sp fp pair.1).2 = stack
  generalize stackReadBestEffort mem (codeAddress pair.2) lim.codeWindow = code
  rw [stackAppendBlob_eq hblob, ← append_assoc]
  by_cases hstack : (blob ++ stack).length ≤ lim.blobCapacity
  · rw [if_pos hstack]
    by_cases hcode : pair.2 ≠ 0 ∧ lim.codeWindow ≠ 0
    · simp only [if_pos hcode]
      rw [stackAppendBlob_eq hstack]
      constructor
      · intro hfits
        rw [if_pos hfits, length_append]
      · intro hfull
        rw [if_neg (not_le.mpr hfull)]
    · simp only [if_neg hcode, append_nil, length_nil]
      exact ⟨fun _ => trivial, fun hfull => absurd hstack (not_le.mpr hfull)⟩
  · rw [if_neg hstack]
    refine ⟨fun hfits => absurd ?_ hstack, fun _ => rfl⟩
    exact (Nat.le_add_right _ _).trans (length_append.symm.trans_le hfits)

theorem frameOf_eq (first : Bool) (sp fp : Nat) (pair : Nat × Nat) :
    frameOf lim first sp fp pair = frameOf lim true (if first then sp else 0) fp pair := by
  unfold frameOf
  rw [stackSpan_eq first]

theorem frameChain_succ (n sp fp : Nat) (first : Bool) {pair : Nat × Nat}
    (hpair : readPair mem fp = some pair) :
    frameChain mem lim (n + 1) (if first then sp else 0) fp =
      frameOf lim first sp fp pair ::
        if fp < pair.1 then frameChain mem lim n 0 pair.1 else [] := by
  rw [frameChain, hpair, frameOf_eq first]

theorem frameChain_of_none (n sp fp : Nat) (hpair : readPair mem fp = none) :
    frameChain mem lim n sp fp = [] := by
  cases n with
  | zero => rfl
  | succ n => rw [frameChain, hpair]

def chainFrames (mem : TargetRead) (lim : StackLimits) : Nat → List ChainFrame → List StackFrame
  | _, [] => []
  | offset, c :: chain =>
    c.answer mem lim offset :: chainFrames mem lim (offset + (c.bytes mem lim).length) chain

theorem stackWalkLoop_of_fits (n sp fp : Nat) (first : Bool) (blob : List UInt8) (hfp : fp ≠ 0)
    (hup : ∀ c ∈ frameChain mem lim n (if first then sp else 0) fp,
      c.framePointer < c.savedFramePointer)
    (hfits : (blob ++ chainBytes mem lim
      (frameChain mem lim n (if first then sp else 0) fp)).length ≤ lim.blobCapacity) :
    stackWalkLoop mem lim n first sp fp blob =
      let chain := frameChain mem lim n (if first then sp else 0) fp
      ⟨chainFrames mem lim blob.length chain, false, blob ++ chainBytes mem lim chain,
        chain.flatMap (·.reads lim)⟩ := by
  induction n generalizing first sp fp blob with
  | zero => simp [stackWalkLoop, frameChain, chainFrames, chainBytes]
  | succ n ih =>
    rw [stackWalkLoop, if_neg hfp]
    cases hpair : readPair mem fp with
    | none => simp [frameChain_of_none _ _ _ hpair, chainFrames, chainBytes]
    | some pair =>
      rw [frameChain_succ n sp fp first hpair] at hup hfits ⊢
      have hlt : fp < pair.1 := hup _ mem_cons_self
      rw [if_pos hlt] at hup hfits ⊢
      rw [chainBytes, flatMap_cons, ← append_assoc] at hfits
      have hhead := (Nat.le_add_right _ _).trans (length_append.symm.trans_le hfits)
      have hblob := (Nat.le_add_right _ _).trans (length_append.symm.trans_le hhead)
      dsimp only
      rw [(stackStep_eq first sp fp pair hblob).1 hhead]
      dsimp only
      rw [if_neg (not_le.mpr hlt), ih (wrap64 (fp + 16)) pair.1 false _ (by omega)
        (fun c hc => hup c (mem_cons_of_mem _ hc)) hfits]
      simp only [chainFrames, chainBytes, flatMap_cons, append_assoc,
        length_append, Bool.false_eq_true, if_false]

theorem stackWalkLoop_of_not_fits (n sp fp : Nat) (first : Bool) (blob : List UInt8)
    (hfp : fp ≠ 0) (hblob : blob.length ≤ lim.blobCapacity)
    (h : (∀ c ∈ frameChain mem lim n (if first then sp else 0) fp,
        c.framePointer < c.savedFramePointer) →
      lim.blobCapacity <
        (blob ++ chainBytes mem lim (frameChain mem lim n (if first then sp else 0) fp)).length) :
    (stackWalkLoop mem lim n first sp fp blob).frames.length <
      (frameChain mem lim n (if first then sp else 0) fp).length := by
  induction n generalizing first sp fp blob with
  | zero =>
    have := h (by simp [frameChain])
    simp [frameChain, chainBytes] at this
    omega
  | succ n ih =>
    rw [stackWalkLoop, if_neg hfp]
    cases hpair : readPair mem fp with
    | none =>
      rw [frameChain_of_none _ _ _ hpair] at h
      have := h (by simp)
      simp [chainBytes] at this
      omega
    | some pair =>
      rw [frameChain_succ n sp fp first hpair] at h ⊢
      obtain ⟨hanswer, hnone⟩ := @stackStep_eq mem lim first sp fp pair _ hblob
      dsimp only
      by_cases hhead : (blob ++ (frameOf lim first sp fp pair).bytes mem lim).length ≤
          lim.blobCapacity
      · rw [hanswer hhead]
        dsimp only
        by_cases hlt : pair.1 ≤ fp
        · rw [if_pos hlt]
          exact Nat.succ_pos _
        · rw [if_neg hlt, if_pos (not_le.mp hlt), length_cons, length_cons]
          refine Nat.succ_lt_succ (ih (wrap64 (fp + 16)) pair.1 false _ (by omega) hhead ?_)
          intro hup
          rw [if_pos (not_le.mp hlt)] at h
          have := h (forall_mem_cons.mpr ⟨not_le.mp hlt, hup⟩)
          rwa [chainBytes, flatMap_cons, ← append_assoc] at this
      · rw [hnone (not_le.mp hhead)]
        exact Nat.succ_pos _

theorem shows_answer (before after : List UInt8) (c : ChainFrame) :
    StackFrame.Shows mem lim (before ++ (c.bytes mem lim ++ after))
      (c.answer mem lim before.length) c := by
  refine ⟨rfl, rfl, rfl, rfl, rfl, ?_, rfl, ?_⟩
  · rw [ChainFrame.answer, ChainFrame.bytes, drop_left' rfl, append_assoc,
      take_left' rfl]
  · rw [ChainFrame.answer, ChainFrame.bytes]
    dsimp only
    by_cases hcode : c.returnAddress ≠ 0 ∧ lim.codeWindow ≠ 0
    · rw [if_pos hcode, append_assoc, ← append_assoc before,
        drop_left' length_append, take_left' rfl]
    · rw [ChainFrame.codeBytes, if_neg hcode, length_nil, take_zero]

theorem shows_chainFrames (before : List UInt8) (chain : List ChainFrame) :
    List.Forall₂ (StackFrame.Shows mem lim (before ++ chainBytes mem lim chain))
      (chainFrames mem lim before.length chain) chain := by
  induction chain generalizing before with
  | nil => exact .nil
  | cons c chain ih =>
    rw [chainBytes, flatMap_cons, chainFrames]
    refine .cons (shows_answer before _ c) ?_
    have hrest := ih (before ++ c.bytes mem lim)
    rwa [length_append, append_assoc, chainBytes] at hrest

theorem codeWindow_le_scratchSize : lim.codeWindow ≤ lim.scratchSize := by
  rw [StackLimits.scratchSize]
  split_ifs with h
  · exact h.le
  · exact le_rfl

theorem mem_reads_le_iff (c : ChainFrame) :
    (∀ len ∈ c.reads lim, len ≤ lim.scratchSize) ↔ c.stackLength ≤ lim.scratchSize := by
  rw [ChainFrame.reads]
  split_ifs
  · simp [codeWindow_le_scratchSize]
  · simp

theorem stackWalk_faithful_iff {fp sp : Nat} (hfp : fp ≠ 0) :
    (stackWalk mem lim fp sp).Faithful mem lim fp sp ↔ ChainFits mem lim fp sp := by
  by_cases hfits : (∀ c ∈ frameChain mem lim lim.maxFrames sp fp,
      c.framePointer < c.savedFramePointer) ∧
      (chainBytes mem lim (frameChain mem lim lim.maxFrames sp fp)).length ≤ lim.blobCapacity
  · have hwalk : stackWalk mem lim fp sp = _ :=
      stackWalkLoop_of_fits lim.maxFrames sp fp true [] hfp hfits.1 hfits.2
    simp only [if_true, nil_append] at hwalk
    have hreads : (∀ len ∈ (stackWalk mem lim fp sp).scratchReads, len ≤ lim.scratchSize) ↔
        ∀ c ∈ frameChain mem lim lim.maxFrames sp fp, c.stackLength ≤ lim.scratchSize := by
      simp only [hwalk, mem_flatMap, ← mem_reads_le_iff]
      exact ⟨fun h c hc len hlen => h len ⟨c, hc, hlen⟩, fun h len ⟨c, hc, hlen⟩ => h c hc len hlen⟩
    refine ⟨fun h => ⟨hfits.1, hfits.2, hreads.mp h.bounded⟩,
      fun h => ⟨?_, hreads.mpr h.scratch⟩⟩
    rw [hwalk]
    exact shows_chainFrames [] _
  · refine iff_of_false (fun h => ?_) fun h => hfits ⟨h.upward, h.capacity⟩
    have hshort := @stackWalkLoop_of_not_fits mem lim lim.maxFrames sp fp true []
      hfp (Nat.zero_le _) fun hup => not_le.mp fun hcap => hfits ⟨hup, hcap⟩
    exact hshort.ne h.shows.length_eq

theorem length_stackStep_le (first : Bool) (sp fp : Nat) (pair : Nat × Nat) {blob : List UInt8}
    (hblob : blob.length ≤ lim.blobCapacity) :
    (stackStep mem lim first sp fp pair blob).2.1.length ≤ lim.blobCapacity := by
  rw [stackStep]
  rw [stackAppendBlob_eq hblob]
  generalize stackReadBestEffort mem _ _ = stack
  by_cases hstack : (blob ++ stack).length ≤ lim.blobCapacity
  · rw [if_pos hstack]
    dsimp only
    by_cases hcode : pair.2 ≠ 0 ∧ lim.codeWindow ≠ 0
    · rw [if_pos hcode, stackAppendBlob_eq hstack]
      split_ifs with hfits
      · exact hfits
      · exact hstack
    · rw [if_neg hcode]
      exact hstack
  · rw [if_neg hstack]
    exact hblob

theorem stackWalkLoop_bounds (n sp fp : Nat) (first : Bool) (blob : List UInt8)
    (hblob : blob.length ≤ lim.blobCapacity) :
    (stackWalkLoop mem lim n first sp fp blob).frames.length ≤ n ∧
      (stackWalkLoop mem lim n first sp fp blob).blob.length ≤ lim.blobCapacity := by
  induction n generalizing first sp fp blob with
  | zero => exact ⟨Nat.zero_le _, hblob⟩
  | succ n ih =>
    rw [stackWalkLoop]
    have hend : ([] : List StackFrame).length ≤ n + 1 := Nat.zero_le _
    split_ifs
    · exact ⟨hend, hblob⟩
    cases readPair mem fp with
    | none => exact ⟨hend, hblob⟩
    | some pair =>
      have hstep := @length_stackStep_le mem lim first sp fp pair _ hblob
      dsimp only
      cases (stackStep mem lim first sp fp pair blob).1 with
      | none => exact ⟨hend, hstep⟩
      | some fr =>
        split_ifs
        · exact ⟨hend, hstep⟩
        · have hrest := ih (wrap64 (fp + 16)) pair.1 false _ hstep
          exact ⟨Nat.succ_le_succ hrest.1, hrest.2⟩

end Loop

/-! ## The request -/

def stackLimits (req : Request) : StackLimits where
  maxFrames := stackLimit (req.field 24 4) 64 64
  maxFrameBytes := stackLimit (req.field 28 4) 256 4096
  codeWindow := stackLimit (req.field 32 4) 200 200

def handleProcessStackIn (mem : Int → TargetRead) (malloc : Nat → Bool) (start : Nat × Nat)
    (req : Request) : Except Status StackWalk × List Nat :=
  if req.body.length ≠ 40 then (.error .errProtocol, [])
  else if pidAt req 0 ≤ 1 then (.error .errParam, [])
  else if start.1 = 0 then (.error .errParam, [])
  else if protocolMaxPacket / 2 < (stackLimits req).blobCapacity then (.error .errOverflow, [])
  else if malloc 0 = false ∨ malloc 1 = false then (.error .errNomem, [])
  else
    let walk := stackWalk (mem (pidAt req 0)) (stackLimits req) start.1 start.2
    if protocolMaxPacket < 16 + 56 * walk.frames.length + walk.blob.length then
      (.error .errOverflow, walk.scratchReads)
    else if malloc 2 = false then (.error .errNomem, walk.scratchReads)
    else (.ok walk, walk.scratchReads)

section Request

variable {mem : Int → TargetRead} {malloc : Nat → Bool} {start : Nat × Nat} {req : Request}

theorem stackLimit_le (value default maximum : Nat) : stackLimit value default maximum ≤ maximum :=
  Nat.min_le_right _ _

theorem blobCapacity_stackLimits_le : (stackLimits req).blobCapacity ≤ 64 * (4096 + 200) :=
  Nat.mul_le_mul (stackLimit_le _ _ _) (Nat.add_le_add (stackLimit_le _ _ _) (stackLimit_le _ _ _))

/-- The checks of `handle_process_stack`. -/
def StackAdmitted (start : Nat × Nat) (req : Request) : Prop :=
  req.body.length = 40 ∧ 1 < pidAt req 0 ∧ start.1 ≠ 0

theorem handleProcessStackIn_of_admitted (h : StackAdmitted start req) :
    handleProcessStackIn mem malloc start req =
      let walk := stackWalk (mem (pidAt req 0)) (stackLimits req) start.1 start.2
      if malloc 0 = false ∨ malloc 1 = false then (.error .errNomem, [])
      else if malloc 2 = false then (.error .errNomem, walk.scratchReads)
      else (.ok walk, walk.scratchReads) := by
  obtain ⟨hlen, hpid, hfp⟩ := h
  have hcap := @blobCapacity_stackLimits_le req
  obtain ⟨hframes, hblob⟩ := @stackWalkLoop_bounds (mem (pidAt req 0)) (stackLimits req)
    (stackLimits req).maxFrames start.2 start.1 true [] (Nat.zero_le _)
  have hmax : (stackLimits req).maxFrames ≤ 64 := stackLimit_le _ _ _
  rw [handleProcessStackIn, if_neg (not_not.mpr hlen), if_neg (not_le.mpr hpid), if_neg hfp,
    if_neg (by unfold protocolMaxPacket; omega)]
  rw [if_neg (show ¬protocolMaxPacket < 16 + 56 * (stackWalk _ _ _ _).frames.length + _ by
    unfold stackWalk protocolMaxPacket; omega)]

/-- Whatever is answered shows the chain of frames, and no read exceeds the scratch buffer. -/
def StackFaithful (mem : Int → TargetRead) (malloc : Nat → Bool) (start : Nat × Nat)
    (req : Request) : Prop :=
  let out := handleProcessStackIn mem malloc start req
  let lim := stackLimits req
  (∀ walk, out.1 = .ok walk → List.Forall₂ (StackFrame.Shows (mem (pidAt req 0)) lim walk.blob)
    walk.frames (frameChain (mem (pidAt req 0)) lim lim.maxFrames start.2 start.1)) ∧
  ∀ len ∈ out.2, len ≤ lim.scratchSize

/-- A stack request is answered faithfully exactly if its chain fits. -/
theorem stackFaithful_iff (mem : Int → TargetRead) (start : Nat × Nat) (req : Request) :
    (∀ malloc, StackFaithful mem malloc start req) ↔
      (StackAdmitted start req →
        ChainFits (mem (pidAt req 0)) (stackLimits req) start.1 start.2) := by
  constructor
  · intro h hadmitted
    obtain ⟨hshows, hbounded⟩ := h fun _ => true
    simp only [handleProcessStackIn_of_admitted hadmitted, Bool.true_eq_false, or_self,
      if_false] at hshows hbounded
    exact (stackWalk_faithful_iff hadmitted.2.2).mp ⟨hshows _ rfl, hbounded⟩
  · intro h malloc
    by_cases hadmitted : StackAdmitted start req
    · have hwalk := (stackWalk_faithful_iff hadmitted.2.2).mpr (h hadmitted)
      rw [StackFaithful, handleProcessStackIn_of_admitted hadmitted]
      split_ifs
      · exact ⟨nofun, nofun⟩
      · exact ⟨nofun, hwalk.bounded⟩
      · refine ⟨fun walk hok => ?_, hwalk.bounded⟩
        cases hok
        exact hwalk.shows
    · have hrejected : ∃ st, handleProcessStackIn mem malloc start req = (.error st, []) := by
        rw [handleProcessStackIn]
        by_cases hlen : req.body.length = 40
        · rw [if_neg (not_not.mpr hlen)]
          by_cases hpid : pidAt req 0 ≤ 1
          · exact ⟨_, if_pos hpid⟩
          · rw [if_neg hpid]
            have hfp : start.1 = 0 := by
              by_contra hfp
              exact hadmitted ⟨hlen, not_le.mp hpid, hfp⟩
            exact ⟨_, if_pos hfp⟩
        · exact ⟨_, if_pos hlen⟩
      obtain ⟨st, hout⟩ := hrejected
      rw [StackFaithful, hout]
      exact ⟨nofun, nofun⟩

def lastFrame : TargetRead where
  read address len :=
    if address = 0x7000 ∧ len = 16 then some (List.replicate 16 0) else none
  length_le := by
    intro addr len bytes h
    split_ifs at h with hat
    cases h
    exact hat.2.ge

def lastFrameRequest : Request where
  command := .processStack
  requestId := 7
  body := leBytes 4 100 ++ leBytes 4 0 ++ leBytes 8 0x7000 ++ leBytes 8 0 ++ leBytes 4 0 ++
    leBytes 4 0 ++ leBytes 4 0 ++ leBytes 4 0

theorem lastFrame_lost : ¬∀ (mem : Int → TargetRead) (malloc : Nat → Bool) (start : Nat × Nat)
    (req : Request), StackFaithful mem malloc start req := by
  intro h
  have hshows := (h (fun _ => lastFrame) (fun _ => true) (0x7000, 0) lastFrameRequest).1
    ⟨[], false, List.replicate 16 0, [16]⟩ (by decide)
  exact absurd hshows.length_eq (by decide)

end Request

end MemDbg.Daemon.Dispatch
