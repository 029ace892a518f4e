import MemDbg.Legacy.Handlers

/-!
# The answers of the legacy handlers

What an answer looks like: its status words are swapped, and behind a success status
there are as many bytes as the count of the answer says.  Every handler answers so, apart
from those that take a data phase, as long as no bridge delivers the result of its native
handler.
-/

namespace MemDbg.Legacy

open List Lib Lib.Dialogue Lib.Pipe FlashScan

/-! ## Replies -/

def Piece.Swapped : Piece → Prop
  | status code word => word = legacyBitswap32 code
  | blob _ => True

def payload : List Piece → List UInt8
  | [] => []
  | .status _ _ :: pieces => payload pieces
  | .blob bytes :: pieces => bytes ++ payload pieces

def Successful : List Piece → Prop
  | .status code _ :: _ => code = cmdSuccess
  | _ => True

def Counted (width size : Nat) (bytes : List UInt8) : Prop :=
  bytes.length = width + size * leNat (bytes.take width)

def Fetched (vlen : Nat) (bytes : List UInt8) : Prop :=
  bytes.length = 4 + fetchEntrySize vlen ((leNat (bytes.take 4)).testBit 31) *
    (leNat (bytes.take 4) % 2 ^ 31) + 4

/-- Packets behind their lengths, then the sentinel and the last word of the handler. -/
inductive Streamed : List UInt8 → Prop
  | sentinel : Streamed (leBytes 8 (2 ^ 64 - 1) ++ leBytes 4 0)
  | packet {packet rest : List UInt8} : packet.length < 2 ^ 64 - 1 → Streamed rest →
      Streamed (leBytes 8 packet.length ++ packet ++ rest)

/-- A scan that is kept sends a header, and its hits only when they are not stored. -/
def Started (req : StartRequest) (bytes : List UInt8) : Prop :=
  qsSnapshot req.requestFlags = true ∨
    if qsServerKeep req.requestFlags then
      if leNat ((bytes.drop 4).take 4) = 0 then Streamed (bytes.drop 16) else bytes.length = 20
    else Streamed (bytes.drop 4)

/-- What is behind a success status is as long as the count of the reply, or of the request, says.
A scan sends a chunk of addresses, and a zero count behind the last; REGIONS and FETCH end with a
word of their native handlers.  The values of the FlashScan session have `vlen` bytes. -/
def Announced (vlen : Nat) (body bytes : List UInt8) : LegacyCommand → Prop
  | .version | .branding => Counted 4 1 bytes
  | .procList => Counted 4 36 bytes
  | .procMaps => Counted 4 58 bytes
  | .debugGetThreads => Counted 4 4 bytes
  | .disasm => Counted 4 32 bytes
  | .xrefs => Counted 8 8 bytes
  | .scan | .scanAob | .scanFetch =>
    Counted 4 8 bytes ∨ Counted 4 8 (bytes.take (bytes.length - 4))
  | .quickscanRegions => 4 ≤ bytes.length ∧ Counted 4 32 (bytes.take (bytes.length - 4))
  | .quickscanStart => Started (startRequest body) bytes
  | .quickscanFetch => Fetched vlen bytes
  | .procRead => bytes.length = field body 12 4
  | .kernRead => bytes.length = field body 8 4
  | .procWriteMulti => bytes.length = if (field body 8 4).testBit 0 then field body 4 4 else 0
  | _ => True

def Replies (vlen : Nat) (command : LegacyCommand) (body : List UInt8)
    (pieces : List Piece) : Prop :=
  Successful pieces → Announced vlen body (payload pieces) command

variable {vlen : Nat}

@[simp] theorem payload_append (pieces pieces' : List Piece) :
    payload (pieces ++ pieces') = payload pieces ++ payload pieces' := by
  induction pieces with
  | nil => rfl
  | cons piece pieces ih =>
    cases piece with
    | status _ _ => exact ih
    | blob bytes =>
      change bytes ++ payload (pieces ++ pieces') = bytes ++ payload pieces ++ payload pieces'
      rw [ih, append_assoc]

@[simp] theorem payload_statusWord (code : UInt32) : payload (statusWord code) = [] := rfl

@[simp] theorem payload_sendBlob (bytes : List UInt8) :
    payload (sendBlob bytes).flatten = bytes := by
  unfold sendBlob
  split_ifs with h
  · exact h.symm
  · exact append_nil _

abbrev AllSwapped (pieces : List Piece) : Prop := ∀ piece ∈ pieces, piece.Swapped

theorem allSwapped_append {pieces pieces' : List Piece} (h : AllSwapped pieces)
    (h' : AllSwapped pieces') : AllSwapped (pieces ++ pieces') :=
  fun piece hmem => (mem_append.mp hmem).elim (h piece) (h' piece)

theorem allSwapped_statusWord (code : UInt32) : AllSwapped (statusWord code) := by
  rintro piece hmem
  obtain rfl := mem_singleton.mp hmem
  exact rfl

theorem allSwapped_blob (bytes : List UInt8) : AllSwapped [.blob bytes] := by
  rintro piece hmem
  obtain rfl := mem_singleton.mp hmem
  exact trivial

theorem allSwapped_sendBlob (bytes : List UInt8) : AllSwapped (sendBlob bytes).flatten := by
  unfold sendBlob
  split_ifs
  · nofun
  · exact allSwapped_blob bytes

theorem counted_of_append {width size count : Nat} {entries : List UInt8}
    (hcount : count < 256 ^ width) (hentries : entries.length = size * count) :
    Counted width size (leBytes width count ++ entries) := by
  unfold Counted
  rw [length_append, length_leBytes,
    take_left' (length_leBytes _ _), leNat_leBytes, Nat.mod_eq_of_lt hcount, hentries]

theorem counted_zero {width size : Nat} : Counted width size (leBytes width 0) := by
  have h := @counted_of_append width size 0 [] (Nat.pow_pos (by decide)) rfl
  rwa [append_nil] at h

/-! ## Answers -/

inductive Answers (vlen : Nat) (command : LegacyCommand) (body : List UInt8) : LegacyTalk → Prop
  | refusal {code : UInt32} : code ≠ cmdSuccess → Answers vlen command body (sendStatus code)
  | reply {writes : List (List Piece)} : AllSwapped writes.flatten →
      Announced vlen body (payload writes.flatten) command →
        Answers vlen command body (answer writes)
  | scan {writes : List (List Piece)} : AllSwapped writes.flatten →
      Announced vlen body (payload writes.flatten) command →
        Answers vlen command body (sendWrites writes)

section Answers

variable {command : LegacyCommand} {body : List UInt8}

theorem legacyStatusFromMemdbg_ne_success {st : Status} (h : st ≠ .ok) :
    legacyStatusFromMemdbg st ≠ cmdSuccess := by
  cases st with
  | ok => contradiction
  | _ => decide

theorem Answers.failure {st : Status} (h : st ≠ .ok) :
    Answers vlen command body (sendMemdbgStatus st) :=
  .refusal (legacyStatusFromMemdbg_ne_success h)

theorem Answers.status {code : UInt32} (h : Announced vlen body [] command) :
    Answers vlen command body (sendStatus code) :=
  .reply (allSwapped_append (allSwapped_statusWord code) nofun) h

theorem Answers.memdbgStatus {st : Status} (h : Announced vlen body [] command) :
    Answers vlen command body (sendMemdbgStatus st) := .status h

theorem Answers.success {bytes : List UInt8} (h : Announced vlen body bytes command) :
    Answers vlen command body (sendSuccess bytes) := by
  refine .reply (allSwapped_append (allSwapped_statusWord _) (allSwapped_sendBlob _)) ?_
  rw [flatten_cons, payload_append, payload_statusWord, payload_sendBlob]
  exact h

theorem Answers.counted {size count : Nat} {entries : List UInt8}
    (hannounced : Counted 4 size (leBytes 4 count ++ entries) →
      Announced vlen body (leBytes 4 count ++ entries) command)
    (hcount : count < 2 ^ 32) (hentries : entries.length = size * count) :
    Answers vlen command body (sendCounted count entries) := by
  refine .reply (allSwapped_append (allSwapped_statusWord _)
    (allSwapped_append (allSwapped_blob _) (allSwapped_sendBlob _))) ?_
  change Announced vlen body (leBytes 4 count ++ payload (sendBlob entries).flatten) command
  rw [payload_sendBlob]
  exact hannounced (counted_of_append hcount hentries)

end Answers

/-! ## The handlers -/

theorem length_zeroed (n : Nat) (bytes : List UInt8) : (zeroed n bytes).length = n := by
  rw [zeroed, length_take, length_append, length_replicate]
  exact Nat.min_eq_left (Nat.le_add_left _ _)

theorem length_legacyCopyFixed (n : Nat) (text : List UInt8) :
    (legacyCopyFixed n text).length = n := length_zeroed n _

theorem length_flatMap_of_length {ε : Type*} {entry : ε → List UInt8} {size : Nat}
    (h : ∀ e, (entry e).length = size) (list : List ε) :
    (list.flatMap entry).length = size * list.length := by
  induction list with
  | nil => rfl
  | cons e list ih =>
    rw [flatMap_cons, length_append, h, ih, length_cons, Nat.mul_succ, Nat.add_comm]

section Handlers

variable (cfg : LegacyConfig) (ops : LegacyOps) (body : List UInt8) {command : LegacyCommand}

theorem answers_sendSizedString {text : List UInt8} (htext : text.length < 2 ^ 32)
    (hcommand : command = .version ∨ command = .branding) :
    Answers vlen command body (sendSizedString text) := by
  refine .reply (allSwapped_append (allSwapped_blob _) (allSwapped_sendBlob _)) ?_
  have hcounted : Counted 4 1 (leBytes 4 text.length ++ text) :=
    counted_of_append htext (Nat.one_mul _).symm
  change Announced vlen body (leBytes 4 text.length ++ payload (sendBlob text).flatten) command
  rw [payload_sendBlob]
  rcases hcommand with rfl | rfl
  · exact hcounted
  · exact hcounted

theorem answers_sendList {ε : Type} {list : Status × List ε} {entry : ε → List UInt8} {size : Nat}
    (hentry : ∀ e, (entry e).length = size)
    (hannounced : ∀ bytes, Counted 4 size bytes → Announced vlen body bytes command) :
    Answers vlen command body (sendList ops list entry) := by
  unfold sendList
  split_ifs with hrefused hok halloc
  · exact .failure nofun
  · exact .failure hok
  · exact .refusal (by decide)
  · have hcount : list.2.length < 2 ^ 32 := by
      push Not at hrefused
      omega
    exact .counted (hannounced _) hcount (length_flatMap_of_length hentry _)

theorem length_procListEntry (e : LegacyProcess) : (procListEntry e).length = 36 := by
  rw [procListEntry, length_append, length_legacyCopyFixed, int32Bytes, length_leBytes]

theorem length_procMapsEntry (e : LegacyMap) : (procMapsEntry e).length = 58 := by
  simp only [procMapsEntry, length_append, length_legacyCopyFixed, length_leBytes]

theorem answers_processList : Answers vlen .procList body (legacyHandleProcessList ops) :=
  answers_sendList ops body length_procListEntry fun _ => id

theorem answers_processMaps : Answers vlen .procMaps body (legacyHandleProcessMaps ops body) := by
  unfold legacyHandleProcessMaps
  split_ifs
  · exact .refusal (by decide)
  · exact answers_sendList ops body length_procMapsEntry fun _ => id

theorem answers_processInfo : Answers vlen .procInfo body (legacyHandleProcessInfo ops body) := by
  unfold legacyHandleProcessInfo
  dsimp only
  split_ifs with hbody hok
  · exact .refusal (by decide)
  · exact .failure hok
  · exact .success trivial

theorem answers_processAlloc {hinted : Bool} (h : ∀ bytes, Announced vlen body bytes command) :
    Answers vlen command body (legacyHandleProcessAlloc ops body hinted) := by
  unfold legacyHandleProcessAlloc
  generalize (if hinted then 16 else 8) = size
  generalize (if hinted then field body 12 4 else field body 4 4) = length
  by_cases hbody : hasBody body size = false
  · rw [if_pos hbody]
    exact .refusal (by decide)
  rw [if_neg hbody]
  by_cases hzero : field body 0 4 = 0 ∨ length = 0
  · rw [if_pos hzero]
    exact .refusal (by decide)
  rw [if_neg hzero]
  refine .reply (allSwapped_append (allSwapped_statusWord _) ?_) (h _)
  generalize ops.memoryAlloc _ _ length hinted = result
  by_cases hok : result.1 = .ok ∨ hinted
  · rw [if_pos hok]
    exact allSwapped_blob _
  · rw [if_neg hok]
    nofun

theorem answers_processFree : Answers vlen .procFree body (legacyHandleProcessFree ops body) := by
  unfold legacyHandleProcessFree
  split_ifs
  · exact .refusal (by decide)
  · exact .refusal (by decide)
  · exact .memdbgStatus trivial

theorem answers_processProtect :
    Answers vlen .procProtect body (legacyHandleProcessProtect ops body) := by
  unfold legacyHandleProcessProtect
  split_ifs
  · exact .refusal (by decide)
  · exact .refusal (by decide)
  · exact .memdbgStatus trivial

theorem answers_firstMap : Answers vlen .procFirstMap body (legacyHandleFirstMap ops body) := by
  unfold legacyHandleFirstMap
  split_ifs
  · exact .refusal (by decide)
  · dsimp only
    split
    · exact .memdbgStatus trivial
    · split_ifs with hok
      · exact .failure hok
      · exact .success trivial

theorem flatten_readChunks (read : Nat → Nat → List UInt8) (address rem : Nat) :
    AllSwapped (readChunks read address rem).flatten ∧
      (payload (readChunks read address rem).flatten).length = rem := by
  induction rem using Nat.strong_induction_on generalizing address with
  | _ rem ih =>
    rw [readChunks]
    split_ifs with hrem
    · exact ⟨nofun, hrem.symm⟩
    · have hchunk : 0 < legacyRwChunk := by decide
      obtain ⟨hswapped, hlength⟩ := ih (rem - min rem legacyRwChunk) (by omega)
        (wrap64 (address + min rem legacyRwChunk))
      refine ⟨allSwapped_append (allSwapped_blob _) hswapped, ?_⟩
      change (zeroed _ _ ++ payload (readChunks _ _ _).flatten).length = rem
      rw [length_append, length_zeroed, hlength]
      omega

theorem answers_memoryRead : Answers vlen .procRead body (legacyHandleMemoryRead cfg ops body) := by
  unfold legacyHandleMemoryRead
  split_ifs
  · exact .refusal (by decide)
  · exact .refusal (by decide)
  · exact .refusal (by decide)
  · have hchunks := flatten_readChunks (ops.memoryRead (field body 0 4)) (field body 4 8)
      (field body 12 4)
    exact .reply (allSwapped_append (allSwapped_statusWord _) hchunks.1) hchunks.2

theorem answers_debugAttach :
    Answers vlen .debugAttach body (legacyHandleDebugAttach ops.debug body) := by
  unfold legacyHandleDebugAttach
  split_ifs
  · exact .refusal (by decide)
  · exact .refusal (by decide)
  · exact .refusal (by decide)
  · exact .memdbgStatus trivial

theorem answers_debugGetBlob {registers : LegacyCommand} {size lwp : Nat}
    (h : ∀ bytes, Announced vlen body bytes command) :
    Answers vlen command body (legacyDebugGetBlob ops.debug registers size lwp) := by
  unfold legacyDebugGetBlob
  dsimp only
  split_ifs with hok
  · exact .success (h _)
  · exact .failure hok

theorem answers_debugGetThreads :
    Answers vlen .debugGetThreads body (legacyDebugGetThreads ops.debug) := by
  unfold legacyDebugGetThreads
  split_ifs with hok
  · exact .failure hok
  · have hcount : (ops.debug.threads.2.take maxThreads).length ≤ maxThreads :=
      length_take_le _ _
    exact .counted id (hcount.trans_lt (by decide))
      (length_flatMap_of_length (fun _ => length_leBytes 4 _) _)

theorem answers_debugThreadInfo {lwp : Nat} (h : ∀ bytes, Announced vlen body bytes command) :
    Answers vlen command body (legacyDebugThreadInfo ops.debug lwp) := by
  unfold legacyDebugThreadInfo
  split_ifs with hok
  · exact .failure hok
  · exact .success (h _)

def IsDebug : LegacyCommand → Prop
  | .debugDetach | .debugSetBp | .debugSetWp | .debugGetThreads | .debugSuspendTid
  | .debugResumeTid | .debugGetRegs | .debugSetRegs | .debugGetFpregs | .debugSetFpregs
  | .debugGetDbregs | .debugSetDbregs | .debugGetFsgsbase | .debugSetFsgsbase | .debugContinue
  | .debugThreadInfo | .debugStep | .debugStepThread | .debugProcessStop => True
  | _ => False

theorem answers_debugSetBp : Answers vlen .debugSetBp body (legacyDebugSetBp ops.debug body) := by
  unfold legacyDebugSetBp
  by_cases hbody : hasBody body 16 = false
  · rw [if_pos hbody]
    exact .failure nofun
  rw [if_neg hbody]
  by_cases hindex : field body 0 4 ≥ 30
  · rw [if_pos hindex]
    exact .refusal (by decide)
  rw [if_neg hindex]
  by_cases henabled : field body 4 4 ≠ 0
  · rw [if_pos henabled]
    exact .memdbgStatus trivial
  · rw [if_neg henabled]
    exact .memdbgStatus trivial

theorem answers_debugSetWp : Answers vlen .debugSetWp body (legacyDebugSetWp ops.debug body) := by
  unfold legacyDebugSetWp
  by_cases hbody : hasBody body 24 = false
  · rw [if_pos hbody]
    exact .failure nofun
  rw [if_neg hbody]
  by_cases hindex : field body 0 4 ≥ 4
  · rw [if_pos hindex]
    exact .refusal (by decide)
  rw [if_neg hindex]
  by_cases henabled : field body 4 4 ≠ 0
  · rw [if_pos henabled]
    exact .memdbgStatus trivial
  · rw [if_neg henabled]
    exact .memdbgStatus trivial

theorem answers_debugContinue :
    Answers vlen .debugContinue body (legacyDebugContinue ops.debug body) := by
  unfold legacyDebugContinue
  by_cases hbody : hasBody body 4 = false
  · rw [if_pos hbody]
    exact .failure nofun
  rw [if_neg hbody]
  split
  · exact .memdbgStatus trivial
  · exact .memdbgStatus trivial
  · exact .memdbgStatus trivial
  · exact .failure nofun

theorem answers_debugProcessStop :
    Answers vlen .debugProcessStop body (legacyDebugProcessStop ops.debug body) := by
  unfold legacyDebugProcessStop
  by_cases hbody : body.length ≠ 5
  · rw [if_pos hbody]
    exact .failure nofun
  rw [if_neg hbody]
  by_cases haction : field body 0 4 = 0 ∨ field body 4 1 > 2
  · rw [if_pos haction]
    exact .failure nofun
  · rw [if_neg haction]
    exact .memdbgStatus trivial

theorem hasBody_eight_of_four {body : List UInt8} (h : hasBody body 4 ≠ false) :
    hasBody body 8 = false := by
  have hfour : body.length = 4 := by
    have hboth := eq_true_of_ne_false h
    exact of_decide_eq_true (Bool.and_eq_true_iff.mp hboth).2
  have height : ¬ body.length = 8 := by
    rw [hfour]
    decide
  rw [hasBody, decide_eq_false height, Bool.and_false]

theorem answers_thread {t : LegacyTalk} (h : hasBody body 4 ≠ false → Answers vlen command body t) :
    Answers vlen command body
      (if hasBody body 4 = false then sendMemdbgStatus .errParam else t) := by
  by_cases hbody : hasBody body 4 = false
  · rw [if_pos hbody]
    exact .failure nofun
  · rw [if_neg hbody]
    exact h hbody

theorem answers_setRegisters {registers : LegacyCommand} (hfour : hasBody body 4 ≠ false) :
    Answers vlen command body (if hasBody body 8 = false then sendMemdbgStatus .errParam
      else legacyDebugSetBlob ops registers body) := by
  rw [if_pos (hasBody_eight_of_four hfour)]
  exact .failure nofun

theorem answers_debugCommand (h : IsDebug command) :
    Answers vlen command body (legacyHandleDebugCommand ops command body) := by
  have hregisters : ∀ {c registers : LegacyCommand} {size lwp : Nat},
      (∀ bytes, Announced vlen body bytes c) → hasBody body 4 ≠ false →
        Answers vlen c body (legacyDebugGetBlob ops.debug registers size lwp) :=
    fun hc _ => answers_debugGetBlob ops body hc
  cases command with
  | debugDetach => exact .status trivial
  | debugGetThreads => exact answers_debugGetThreads ops body
  | debugStep => exact .memdbgStatus trivial
  | debugSetBp => exact answers_debugSetBp ops body
  | debugSetWp => exact answers_debugSetWp ops body
  | debugContinue => exact answers_debugContinue ops body
  | debugProcessStop => exact answers_debugProcessStop ops body
  | debugGetRegs => exact answers_thread body (hregisters fun _ => trivial)
  | debugGetFpregs => exact answers_thread body (hregisters fun _ => trivial)
  | debugGetDbregs => exact answers_thread body (hregisters fun _ => trivial)
  | debugGetFsgsbase => exact answers_thread body (hregisters fun _ => trivial)
  | debugSetRegs => exact answers_thread body (answers_setRegisters ops body)
  | debugSetFpregs => exact answers_thread body (answers_setRegisters ops body)
  | debugSetDbregs => exact answers_thread body (answers_setRegisters ops body)
  | debugSetFsgsbase => exact answers_thread body (answers_setRegisters ops body)
  | debugSuspendTid => exact answers_thread body fun _ => .memdbgStatus trivial
  | debugResumeTid => exact answers_thread body fun _ => .memdbgStatus trivial
  | debugStepThread => exact answers_thread body fun _ => .memdbgStatus trivial
  | debugThreadInfo =>
    exact answers_thread body fun _ => answers_debugThreadInfo ops body fun _ => trivial
  | _ => exact h.elim

theorem answers_kernBase : Answers vlen .kernBase body (legacyHandleKernBase ops) := by
  unfold legacyHandleKernBase
  split_ifs with hsupported hok
  · exact .refusal (by decide)
  · exact .failure hok
  · exact .success trivial

theorem answers_kernRead : Answers vlen .kernRead body (legacyHandleKernRead cfg ops body) := by
  unfold legacyHandleKernRead
  dsimp only
  split_ifs with hsupported hbody hallowed halloc hok
  · exact .refusal (by decide)
  · exact .refusal (by decide)
  · exact .refusal (by decide)
  · exact .refusal (by decide)
  · exact .failure hok
  · exact .success (length_zeroed _ _)

theorem answers_reboot :
    Answers vlen .consoleReboot body (legacyHandleConsoleCommand cfg ops .consoleReboot body) := by
  have hsilent : Announced vlen body [] .consoleReboot := trivial
  unfold legacyHandleConsoleCommand
  dsimp only
  split_ifs
  · exact @Answers.reply _ _ _ [] nofun hsilent
  · exact .status hsilent

theorem answers_foreground :
    Answers vlen .consoleForeground body (legacyConsoleForeground ops) := by
  unfold legacyConsoleForeground
  split_ifs with hok
  · exact .failure hok
  · exact .success trivial

end Handlers

/-! ## Scans -/

section Scans

variable (ops : LegacyOps) (body : List UInt8) {command : LegacyCommand}

theorem scanOutcome_error_ne {outcome : Option (Status × Scan.ScanResult)} {code : UInt32}
    (h : scanOutcome outcome = .error code) : code ≠ cmdSuccess := by
  unfold scanOutcome at h
  split at h
  · cases h
  · rename_i st _ hst
    cases h
    exact legacyStatusFromMemdbg_ne_success hst
  · cases h
    decide

theorem scanExactOver_error_ne {range : Nat → Nat → Nat} {limit : Nat} {env : Scan.Env}
    {code : UInt32} (h : scanExactOver range limit env body = .error code) :
    code ≠ cmdSuccess := by
  unfold scanExactOver at h
  split_ifs at h
  · cases h
    decide
  · cases h
    decide
  · cases h
    decide
  · exact scanOutcome_error_ne h

theorem scanAobOver_error_ne {range : Nat → Nat → Nat} {limit : Nat} {env : Scan.Env}
    {code : UInt32} (h : scanAobOver range limit env body = .error code) : code ≠ cmdSuccess := by
  unfold scanAobOver at h
  split_ifs at h
  · cases h
    decide
  · cases h
    decide
  · cases h
    decide
  · exact scanOutcome_error_ne h

def IsScan : LegacyCommand → Prop
  | .scan | .scanAob | .scanFetch => True
  | _ => False

theorem announced_scan {bytes : List UInt8} (hcommand : IsScan command)
    (h : Counted 4 8 bytes ∨ Counted 4 8 (bytes.take (bytes.length - 4))) :
    Announced vlen body bytes command := by
  cases command with
  | scan => exact h
  | scanAob => exact h
  | scanFetch => exact h
  | _ => exact hcommand.elim

theorem counted_chunk {session : ScanSession} (h : session.Holds) :
    Counted 4 8 (leBytes 4 (min (session.total - session.cursor) scanChunkMax) ++
      ((session.addresses.drop session.cursor).take
        (min (session.total - session.cursor) scanChunkMax)).flatMap (leBytes 8)) := by
  have hlength : ((session.addresses.drop session.cursor).take
      (min (session.total - session.cursor) scanChunkMax)).length =
        min (session.total - session.cursor) scanChunkMax := by
    rw [length_take, length_drop, ← h.total, Nat.min_right_comm, Nat.min_self]
  refine counted_of_append ((min_le_right _ _).trans_lt (by decide)) ?_
  rw [length_flatMap_of_length (length_leBytes 8), hlength]

theorem writes_scanSession {session : ScanSession} (h : session.active = true → session.Holds)
    (hcommand : IsScan command) :
    AllSwapped session.writes.flatten ∧
      Announced vlen body (payload session.writes.flatten) command := by
  have hzero : AllSwapped [Piece.blob (leBytes 4 0)] ∧
      Announced vlen body (payload [.blob (leBytes 4 0)]) command :=
    ⟨allSwapped_blob _, announced_scan body hcommand (.inl counted_zero)⟩
  unfold ScanSession.writes
  by_cases hactive : session.active = false
  · rw [if_pos hactive]
    exact hzero
  rw [if_neg hactive]
  by_cases hchunk : min (session.total - session.cursor) scanChunkMax = 0
  · rw [if_pos hchunk]
    exact hzero
  rw [if_neg hchunk]
  have hcounted := counted_chunk (h (eq_true_of_ne_false hactive))
  generalize leBytes 4 (min (session.total - session.cursor) scanChunkMax) = count at hcounted ⊢
  generalize List.flatMap _ _ = addresses at hcounted ⊢
  by_cases hlast : session.cursor + min (session.total - session.cursor) scanChunkMax ≥
      session.total
  · rw [if_pos hlast]
    refine ⟨allSwapped_append (allSwapped_blob count) (allSwapped_append (allSwapped_blob addresses)
      (allSwapped_blob _)), announced_scan body hcommand (.inr ?_)⟩
    change Counted 4 8 ((count ++ (addresses ++ leBytes 4 0)).take _)
    rw [← append_assoc, take_left' ?_]
    · exact hcounted
    · change _ = (count ++ (addresses ++ leBytes 4 0)).length - 4
      simp only [length_append, length_leBytes]
      omega
  · rw [if_neg hlast]
    refine ⟨allSwapped_append (allSwapped_blob count) (allSwapped_append (allSwapped_blob addresses)
      nofun), announced_scan body hcommand (.inl ?_)⟩
    change Counted 4 8 (count ++ (addresses ++ []))
    rwa [append_nil]

theorem LegacyOps.unfilled_scanSession (ops : LegacyOps) : ops.scanSession.Unfilled := by
  obtain ⟨maxScanResults, steps, hsession⟩ := ops.scanned
  rw [← hsession]
  exact (ScanServer.Unfilled.run steps).session

theorem answers_sendScan {outcome : Except UInt32 Scan.ScanResult} (hcommand : IsScan command)
    (h : ∀ code, outcome = .error code → code ≠ cmdSuccess) :
    Answers vlen command body (sendScan ops outcome) := by
  obtain ⟨hswapped, hannounced⟩ := writes_scanSession body ops.unfilled_scanSession.holds hcommand
  cases outcome with
  | error code => exact .refusal (h code rfl)
  | ok result =>
    unfold sendScan
    dsimp only
    by_cases hok : (scanSessionFromResult result ops.scanAllocated).1 ≠ .ok
    · rw [if_pos hok]
      exact .failure hok
    · rw [if_neg hok]
      exact .scan hswapped hannounced

theorem answers_scanCont : Answers vlen .scanFetch body (legacyHandleScanCont ops) := by
  have hfetch : IsScan .scanFetch := trivial
  obtain ⟨hswapped, hannounced⟩ := writes_scanSession body ops.unfilled_scanSession.holds hfetch
  unfold legacyHandleScanCont
  split_ifs
  · exact .reply (allSwapped_blob _) (.inl counted_zero)
  · exact .scan hswapped hannounced

end Scans

/-! ## Native lists and responses -/

section Native

variable {cfg : LegacyConfig} {ops : LegacyOps} {body : List UInt8} {command : LegacyCommand}

def Undelivered (cfg : LegacyConfig) (ops : LegacyOps) (cap : Nat) {width size : Nat} :
    NativeAnswer width size → Prop
  | .refused _ _ => True
  | .found count entries _ _ => 4 + width + entries.length ≤ cfg.pairCapacity ∧
    (cap < count ∨ 0 < count ∧ ops.entriesBuffer = false ∨ ops.responseBuffer = false)

def NativeAnswer.word {width size : Nat} : NativeAnswer width size → UInt32
  | refused code _ => code
  | found _ _ _ _ => 0

variable {width size : Nat}

theorem NativeAnswer.word_ne_success (native : NativeAnswer width size) :
    native.word ≠ cmdSuccess := by
  cases native with
  | refused code h => exact h.2
  | found => exact (by decide : (0 : UInt32) ≠ cmdSuccess)

theorem NativeAnswer.word_bytes (native : NativeAnswer width size) :
    UInt32.ofNat (leNat (native.bytes.take 4)) = native.word := by
  cases native with
  | refused code h =>
    change UInt32.ofNat (leNat ((leBytes 4 code.toNat).take 4)) = code
    have hlt : code.toNat < 256 ^ 4 := code.toNat_lt
    rw [take_of_length_le (length_leBytes _ _).le, leNat_leBytes, Nat.mod_eq_of_lt hlt,
      UInt32.ofNat_toNat]
  | found count entries _ _ =>
    change UInt32.ofNat (leNat ((leBytes 4 0 ++ leBytes width count ++ entries).take 4)) = 0
    rw [append_assoc, take_left' (length_leBytes _ _)]
    rfl

theorem readNativeList_error_ne {native : NativeAnswer width size} {cap : Nat} {countFirst : Bool}
    {code : UInt32} (h : readNativeList ops width size cap countFirst native.bytes = .error code) :
    code ≠ cmdSuccess := by
  unfold readNativeList at h
  rw [native.word_bytes] at h
  dsimp only at h
  split_ifs at h
  · cases h
    decide
  · cases h
    decide
  · cases h
    exact native.word_ne_success
  · cases h
    decide
  · cases h
    decide
  · cases h
    decide
  · cases h
    decide

theorem readNativeList_ne_ok {native : NativeAnswer width size} {cap : Nat} {countFirst : Bool}
    (h : Undelivered cfg ops cap native) (bytes : List UInt8) :
    readNativeList ops width size cap countFirst native.bytes ≠ .ok bytes := by
  intro hok
  unfold readNativeList at hok
  rw [native.word_bytes] at hok
  dsimp only at hok
  cases native with
  | refused code hcode =>
    have hne : (NativeAnswer.refused code hcode : NativeAnswer width size).word ≠ 0 := hcode.1
    rw [if_pos hne] at hok
    split_ifs at hok
  | found count entries hcount hentries =>
    have hread : leNat (((NativeAnswer.found count entries hcount hentries :
        NativeAnswer width size).bytes.drop 4).take width) = count := by
      change leNat (((leBytes 4 0 ++ leBytes width count ++ entries).drop 4).take width) = count
      rw [append_assoc, drop_left' (length_leBytes _ _),
        take_left' (length_leBytes _ _), leNat_leBytes, Nat.mod_eq_of_lt hcount]
    rw [hread] at hok
    split_ifs at hok with hshort hfirst hword hlength hcap hbuffer hresponse
    rcases h.2 with hover | ⟨hpos, hentriesBuffer⟩ | hmissing
    · exact hcap hover
    · exact hbuffer ⟨hpos, .inr (.inr (.inl hentriesBuffer))⟩
    · exact hresponse hmissing

theorem length_bytes_of_undelivered {native : NativeAnswer width size} {cap : Nat}
    (h : Undelivered cfg ops cap native) : native.bytes.length ≤ cfg.pairCapacity := by
  cases native with
  | refused code _ => exact (length_leBytes 4 _).trans_le cfg.four_le_pairCapacity
  | found count entries _ _ =>
    change (leBytes 4 0 ++ leBytes width count ++ entries).length ≤ _
    rw [length_append, length_append, length_leBytes, length_leBytes]
    exact h.1

theorem answers_sendNativeList {native : NativeAnswer width size} {cap : Nat} {countFirst : Bool}
    (h : Undelivered cfg ops cap native) :
    Answers vlen command body (sendNativeList cfg ops cap countFirst native) := by
  unfold sendNativeList
  rw [if_neg (not_lt.mpr (length_bytes_of_undelivered h))]
  cases hread : readNativeList ops width size cap countFirst native.bytes with
  | error code => exact .refusal (readNativeList_error_ne hread)
  | ok bytes => exact absurd hread (readNativeList_ne_ok h bytes)

def Unanswered (size : Nat) (response : Option (Status × List UInt8)) : Prop :=
  ∀ r, response = some r → r.1 ≠ .ok ∨ r.2.length < size

theorem answers_sendNativeResponse {response : Option (Status × List UInt8)} {size : Nat}
    (hcommand : ∀ bytes, Announced vlen body bytes command) (h : Unanswered size response) :
    Answers vlen command body (sendNativeResponse size response) := by
  cases response with
  | none => exact .refusal (by decide)
  | some r =>
    unfold sendNativeResponse
    dsimp only
    rw [if_pos (h r rfl)]
    exact .memdbgStatus (hcommand _)

def DisasmFails (cfg : LegacyConfig) (ops : LegacyOps) (body : List UInt8) : Prop :=
  16 ≤ body.length → ops.buffer = true → ops.pair = true → Undelivered cfg ops 131072 ops.disasm

def XrefsFails (cfg : LegacyConfig) (ops : LegacyOps) (body : List UInt8) : Prop :=
  28 ≤ body.length → ops.pair = true → Undelivered cfg ops 32768 ops.xrefs

def ProcCallFails (ops : LegacyOps) (body : List UInt8) : Prop :=
  60 ≤ body.length → ops.pair = true → Unanswered 8 ops.call

def ProcElfLoadFails (ops : LegacyOps) (body : List UInt8) : Prop :=
  16 + field body 8 8 ≤ body.length → 0 < field body 8 8 → field body 8 8 ≤ 64 * 2 ^ 20 →
    ops.buffer = true → ops.pair = true → Unanswered 16 ops.elfLoad

theorem answers_disasm (h : DisasmFails cfg ops body) :
    Answers vlen .disasm body (legacyHandleDisasm cfg ops body) := by
  unfold legacyHandleDisasm
  split_ifs with hbody hbuffer hpair
  · exact .refusal (by decide)
  · exact .refusal (by decide)
  · exact .refusal (by decide)
  · exact answers_sendNativeList
      (h (not_lt.mp hbody) (eq_true_of_ne_false hbuffer) (eq_true_of_ne_false hpair))

theorem answers_xrefs (h : XrefsFails cfg ops body) :
    Answers vlen .xrefs body (legacyHandleXrefs cfg ops body) := by
  unfold legacyHandleXrefs
  split_ifs with hbody hpair
  · exact .refusal (by decide)
  · exact .refusal (by decide)
  · exact answers_sendNativeList (h (not_lt.mp hbody) (eq_true_of_ne_false hpair))

theorem answers_procCall (h : ProcCallFails ops body) :
    Answers vlen .procCall body (legacyHandleProcCall ops body) := by
  unfold legacyHandleProcCall
  split_ifs with hbody hpair
  · exact .refusal (by decide)
  · exact .refusal (by decide)
  · exact answers_sendNativeResponse (fun _ => trivial)
      (h (not_lt.mp hbody) (eq_true_of_ne_false hpair))

theorem answers_procElfLoad (h : ProcElfLoadFails ops body) :
    Answers vlen .procElfLoad body (legacyHandleProcElfLoad ops body) := by
  unfold legacyHandleProcElfLoad
  split_ifs with hbody hsize himage hbuffer hpair
  · exact .refusal (by decide)
  · exact .refusal (by decide)
  · exact .refusal (by decide)
  · exact .refusal (by decide)
  · exact .refusal (by decide)
  · obtain ⟨hpos, hmax⟩ := not_or.mp hsize
    exact answers_sendNativeResponse (fun _ => trivial) (h (not_lt.mp himage)
      (Nat.pos_of_ne_zero hpos) (not_lt.mp hmax) (eq_true_of_ne_false hbuffer)
      (eq_true_of_ne_false hpair))

end Native

/-! ## FlashScan -/

section Bridge

variable {cfg : LegacyConfig} {env : QuickscanEnv} {body : List UInt8} {command : LegacyCommand}

theorem answers_forwarded {realloc : Nat → Bool} {bytes : List UInt8}
    (h : (leBytes 4 0 ++ bytes).take 4 = leBytes 4 0 →
      Buffers realloc ((leBytes 4 0 ++ bytes).length - 4))
    (hannounced : Announced vlen body bytes command) :
    Answers vlen command body (answer (bridgeWrites realloc (leBytes 4 0 ++ bytes))) := by
  have hfirst : (leBytes 4 0 ++ bytes).take 4 = leBytes 4 0 := take_left' (length_leBytes _ _)
  have hrest : (leBytes 4 0 ++ bytes).drop 4 = bytes := drop_left' (length_leBytes _ _)
  have hbuffers := h hfirst
  rw [← length_drop, hrest] at hbuffers
  unfold bridgeWrites
  rw [if_neg (by rw [length_append, length_leBytes]; omega), hfirst, if_neg (by decide), hrest]
  rcases readRemaining_spec realloc bytes with ⟨-, heq⟩ | ⟨hnot, -, -⟩
  · rw [heq]
    exact .success hannounced
  · exact absurd hbuffers hnot

theorem answers_sendFail (realloc : Nat → Bool) :
    Answers vlen command body
      (answer (bridgeWrites realloc (written [sendFail]))) := by
  have hwrites : bridgeWrites realloc (written [sendFail]) =
      [statusWord cmdError] := rfl
  rw [hwrites]
  exact Answers.refusal (by decide)

theorem answers_regions {regions : RegionsEnv} {realloc : Nat → Bool} (regionMax : Nat)
    (h : (written (regionsIo regions regionMax)).take 4 = leBytes 4 0 →
      Buffers realloc ((written (regionsIo regions regionMax)).length - 4)) :
    Answers vlen .quickscanRegions body
      (answer (bridgeWrites realloc (written (regionsIo regions regionMax)))) := by
  have hfail : regionsIo regions regionMax = [sendFail] →
      Answers vlen .quickscanRegions body
        (answer (bridgeWrites realloc (written (regionsIo regions regionMax)))) := by
    intro hio
    rw [hio]
    exact answers_sendFail realloc
  rcases hmaps : regions.maps with _ | maps
  · exact hfail (by rw [regionsIo, hmaps])
  rcases eq_or_ne maps [] with rfl | hne
  · exact hfail (by rw [regionsIo, hmaps])
  rcases Bool.eq_false_or_eq_true regions.buffers with hbuffers | hbuffers
  · rw [written_regionsIo hmaps hne hbuffers] at h ⊢
    have hcounted := @counted_of_append 4 32 _ _ (listedRegions_lt regionMax maps)
      (length_flatMap_regionInfo regions _)
    generalize leBytes 4 (listedRegions regionMax maps).length ++ _ = counted
      at h hcounted ⊢
    refine answers_forwarded h ⟨?_, ?_⟩
    · rw [length_append, length_leBytes]
      exact Nat.le_add_left _ _
    · rw [length_append, length_leBytes, Nat.add_sub_cancel, take_left]
      exact hcounted
  · refine hfail ?_
    obtain ⟨e, maps, rfl⟩ := exists_cons_of_ne_nil hne
    rw [regionsIo, hmaps]
    dsimp only
    rw [if_pos hbuffers]

theorem fetchHeader_spec {reply : FetchReply} (h : reply.actual < 2 ^ 31) :
    fetchHeader reply < 256 ^ 4 ∧
      (fetchHeader reply).testBit 31 = reply.hasFirst ∧
      fetchHeader reply % 2 ^ 31 = reply.actual := by
  have hbit : reply.actual.testBit 31 = false := Nat.testBit_lt_two_pow h
  unfold fetchHeader
  rw [Nat.testBit_or, hbit, Nat.or_mod_two_pow, Nat.mod_eq_of_lt h]
  cases reply.hasFirst with
  | false =>
    rw [if_neg Bool.false_ne_true, Nat.or_zero]
    exact ⟨h.trans (by decide), rfl, rfl⟩
  | true =>
    have hlt : reply.actual ||| 0x80000000 < 2 ^ 32 :=
      Nat.or_lt_two_pow (h.trans (by decide)) (by decide)
    rw [if_pos rfl]
    exact ⟨hlt, rfl, Nat.or_zero _⟩

theorem answers_fetch (req : FetchRequest)
    (h : (written (fetchIo env.fs env.stale req env.session)).take 4 = leBytes 4 0 →
      Buffers env.realloc
        ((written (fetchIo env.fs env.stale req env.session)).length - 4)) :
    Answers env.session.valueLen .quickscanFetch body (answer (bridgeWrites env.realloc
      (written (fetchIo env.fs env.stale req env.session)))) := by
  cases hreply : flashscanHandleFetch env.fs req env.session with
  | none =>
    have hio : fetchIo env.fs env.stale req env.session = [sendFail] := by
      rw [fetchIo, hreply]
    rw [hio]
    exact answers_sendFail env.realloc
  | some reply =>
    rw [written_fetchIo hreply] at h ⊢
    refine answers_forwarded h ?_
    have hentries := length_handleFetch env.counted_session hreply
    have hbody := length_fetchBody env.stale env.session.valueLen reply
    rw [hentries] at hbody
    generalize (fetchBody env.stale env.session.valueLen reply).flatten = entries
      at h hbody ⊢
    -- a reply that is buffered has far fewer than `2 ^ 31` entries
    have hmax := (h (take_left' (length_leBytes _ _))).le
    simp only [length_append, length_leBytes, hbody] at hmax
    have hsize : 8 * reply.actual ≤
        fetchEntrySize env.session.valueLen reply.hasFirst * reply.actual :=
      Nat.mul_le_mul_right _ (Nat.le_add_right _ _)
    have hfew : reply.actual < 2 ^ 31 := by omega
    obtain ⟨hlt, hfirst, hactual⟩ := fetchHeader_spec hfew
    change Fetched _ _
    unfold Fetched
    rw [take_left' (length_leBytes _ _), leNat_leBytes, Nat.mod_eq_of_lt hlt, hfirst, hactual]
    simp only [length_append, length_leBytes, hbody]
    omega

theorem allSwapped_bridgeWrites (realloc : Nat → Bool) (fifo : List UInt8) :
    AllSwapped (bridgeWrites realloc fifo).flatten := by
  unfold bridgeWrites
  split_ifs
  · exact allSwapped_append (allSwapped_statusWord _) nofun
  · exact allSwapped_append (allSwapped_statusWord _) nofun
  · exact allSwapped_append (allSwapped_statusWord _) (allSwapped_sendBlob _)

theorem streamed_streamIo {packets : List (List UInt8)}
    (h : (written (streamIo packets)).length < 2 ^ 64 - 1) :
    Streamed (written (streamIo packets)) := by
  induction packets with
  | nil => exact .sentinel
  | cons packet packets ih =>
    change (leBytes 8 packet.length ++ packet ++ written (streamIo packets)).length < _ at h
    rw [length_append, length_append, length_leBytes] at h
    exact .packet (by omega) (ih (by omega))

theorem answers_start {compareData mask : Ptr} {script : List Io}
    (hscript : startIo env.fs env.create (startRequest body) compareData mask = some script)
    (h : (written script).take 4 = leBytes 4 0 →
      Buffers env.realloc ((written script).length - 4)) :
    Answers vlen .quickscanStart body (answer (bridgeWrites env.realloc (written script))) := by
  by_cases hsnapshot : qsSnapshot (startRequest body).requestFlags = true
  · exact .reply (allSwapped_bridgeWrites _ _) (.inl hsnapshot)
  have hcases := startIo_cases (Bool.eq_false_of_not_eq_true hsnapshot) hscript
  generalize hkeep : qsServerKeep (startRequest body).requestFlags = keep at hcases
  -- what is buffered is shorter than the sentinel as a length
  cases hcases with
  | failed => exact answers_sendFail env.realloc
  | stored hits =>
    refine answers_forwarded h (.inr ?_)
    rw [hkeep]
    rfl
  | kept packets =>
    have hmax := (h rfl).le
    simp only [sendOk, sendResident, written, length_append, length_leBytes] at hmax
    refine answers_forwarded h (.inr ?_)
    rw [hkeep]
    exact streamed_streamIo (by omega)
  | streamed packets =>
    have hmax := (h rfl).le
    simp only [sendOk, written, length_append, length_leBytes] at hmax
    refine answers_forwarded h (.inr ?_)
    rw [hkeep]
    exact streamed_streamIo (by omega)

def IsQuickscan : LegacyCommand → Prop
  | .quickscanCaps | .quickscanStart | .quickscanCount | .quickscanFetch | .quickscanEnd
  | .quickscanConfig | .quickscanRegions => True
  | _ => False

theorem answers_bridge {call : BridgeCall} (h : call.Fitting cfg.pairCapacity env.realloc)
    (hforwarded : ∀ script, call = .handler (some script) →
      ((written script).take 4 = leBytes 4 0 →
        Buffers env.realloc ((written script).length - 4)) →
      Answers vlen command body (answer (bridgeWrites env.realloc (written script)))) :
    Answers vlen command body (sendBridge cfg env call) := by
  cases call with
  | refused => exact .refusal (by decide)
  | handler script =>
    cases script with
    | none => exact h.elim
    | some script =>
      unfold sendBridge
      dsimp only
      rw [if_pos h.1]
      exact hforwarded script rfl h.2

theorem answers_sendBridge (hcommand : IsQuickscan command)
    (h : (quickscanCall env body command).Fitting cfg.pairCapacity env.realloc) :
    Answers env.session.valueLen command body
      (sendBridge cfg env (quickscanCall env body command)) := by
  have hother : (∀ bytes, Announced env.session.valueLen body bytes command) →
      Answers env.session.valueLen command body
        (sendBridge cfg env (quickscanCall env body command)) := fun hannounced =>
    answers_bridge h fun _ _ _ => .reply (allSwapped_bridgeWrites _ _) (hannounced _)
  cases command with
  | quickscanRegions =>
    refine answers_bridge h fun script hscript hbuffers => ?_
    unfold quickscanCall bridgeCall at hscript
    dsimp only at hscript
    split_ifs at hscript
    cases hscript
    exact answers_regions _ hbuffers
  | quickscanFetch =>
    refine answers_bridge h fun script hscript hbuffers => ?_
    unfold quickscanCall bridgeCall at hscript
    dsimp only at hscript
    split_ifs at hscript
    cases hscript
    exact answers_fetch _ hbuffers
  | quickscanCaps => exact hother fun _ => trivial
  | quickscanStart =>
    refine answers_bridge h fun script hscript hbuffers => ?_
    unfold quickscanCall bridgeCall at hscript
    dsimp only at hscript
    split_ifs at hscript
    · exact answers_start (BridgeCall.handler.inj hscript) hbuffers
    · exact answers_start (BridgeCall.handler.inj hscript) hbuffers
  | quickscanCount => exact hother fun _ => trivial
  | quickscanEnd => exact hother fun _ => trivial
  | quickscanConfig => exact hother fun _ => trivial
  | _ => exact hcommand.elim

end Bridge

end MemDbg.Legacy
