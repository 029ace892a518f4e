import MemDbg.Legacy.Answers

/-!
# The legacy stream stays in step

A client sends the packet of a request and, behind a success status, the data phase the
request announces.  The text of a PRINT or NOTIFY is read before any status is sent: a
client either sends it behind the packet or waits for a status.
-/

namespace MemDbg.Legacy

open List Lib Lib.Dialogue

/-! ## The client -/

structure WriteEntry where
  address : Nat
  data : List UInt8
  length_data_lt : data.length < 2 ^ 32

def WriteEntry.bytes (e : WriteEntry) : List UInt8 :=
  leBytes 8 e.address ++ leBytes 4 e.data.length ++ e.data

inductive DataPhase where
  | bytes (data : List UInt8)
  | entries (list : List WriteEntry)

def DataPhase.wire : DataPhase → List UInt8
  | bytes data => data
  | entries list => list.flatMap WriteEntry.bytes

def announcedBytes (body : List UInt8) : LegacyCommand → Nat
  | .procWrite => if hasBody body 16 then field body 12 4 else 0
  | .kernWrite => if hasBody body 12 then field body 8 4 else 0
  | .debugSetRegs | .debugSetFpregs | .debugSetDbregs | .debugSetFsgsbase =>
    if hasBody body 8 then field body 4 4 else 0
  | .consolePrint => if hasBody body 4 then field body 0 4 else 0
  | .consoleNotify => if hasBody body 8 then field body 4 4 else 0
  | _ => 0

def Announces (body : List UInt8) : Option LegacyCommand → DataPhase → Prop
  | some .procWriteMulti, .entries list =>
    list.length = if hasBody body 12 then field body 4 4 else 0
  | some .procWriteMulti, .bytes _ => False
  | some command, .bytes data => data.length = announcedBytes body command
  | none, .bytes data => data = []
  | _, .entries _ => False

structure LegacyRequest where
  magic : Nat
  command : Nat
  body : List UInt8
  phase : DataPhase
  textFirst : Bool
  magic_lt : magic < 2 ^ 32
  command_lt : command < 2 ^ 32
  length_body_lt : body.length < 2 ^ 32
  announces : Announces body (LegacyCommand.ofCode command) phase

namespace LegacyRequest

variable (r : LegacyRequest)

def header : List UInt8 := leBytes 4 r.magic ++ leBytes 4 r.command ++ leBytes 4 r.body.length

def ahead : Bool :=
  r.textFirst && (LegacyCommand.ofCode r.command == some .consolePrint ||
    LegacyCommand.ofCode r.command == some .consoleNotify)

def early : List UInt8 := if r.ahead then r.phase.wire else []

def held : List UInt8 := if r.ahead then [] else r.phase.wire

end LegacyRequest

def request (r : LegacyRequest) (l : Line UInt8 Piece) : Line UInt8 Piece where
  input := l.input ++ (r.header ++ r.body ++ r.early)
  held := r.held
  received := []
  lost := l.lost

def accepts : List Piece → Bool
  | .status _ word :: _ => word == legacyBitswap32 cmdSuccess
  | _ => false

/-! ## Runs -/

inductive LegacyConn where
  | idle (last : Option (LegacyRequest × Nat)) (line : Line UInt8 Piece)
  | serving (request : LegacyRequest) (vlen : Nat) (talk : LegacyTalk) (line : Line UInt8 Piece)
  | closed (line : Line UInt8 Piece)

inductive LegacyStep (cfg : LegacyConfig) (guard : LegacyOps → LegacyRequest → Prop) :
    LegacyConn → LegacyConn → Prop
  | request {last : Option (LegacyRequest × Nat)} {line : Line UInt8 Piece} (ops : LegacyOps)
      (r : LegacyRequest) : guard ops r →
      LegacyStep cfg guard (.idle last line)
        (.serving r ops.quickscan.session.valueLen (legacyHandleClient cfg ops) (request r line))
  | talk {r : LegacyRequest} {vlen : Nat} {talk talk' : LegacyTalk}
      {line line' : Line UInt8 Piece} : Step accepts (talk, line) (talk', line') →
      LegacyStep cfg guard (.serving r vlen talk line) (.serving r vlen talk' line')
  | next {r : LegacyRequest} {vlen : Nat} {st : Status} {line : Line UInt8 Piece} : st ≠ .errNet →
      LegacyStep cfg guard (.serving r vlen (.done st) line) (.idle (some (r, vlen)) line)
  | close {r : LegacyRequest} {vlen : Nat} {line : Line UInt8 Piece} :
      LegacyStep cfg guard (.serving r vlen (.done .errNet) line) (.closed line)
  | stop {last : Option (LegacyRequest × Nat)} {line : Line UInt8 Piece} :
      LegacyStep cfg guard (.idle last line) (.closed line)

def LegacyConn.opened : LegacyConn := .idle none ⟨[], [], [], false⟩

/-- The connections behind a run whose requests all satisfy a guard. -/
def LegacyReaches (cfg : LegacyConfig) (guard : LegacyOps → LegacyRequest → Prop)
    (conn : LegacyConn) : Prop :=
  Relation.ReflTransGen (LegacyStep cfg guard) .opened conn

/-- The state is in step.  Every status word is swapped; between two
requests the server has read all that the client has sent, and the reply is as long as announced,
unless the connection is lost; inside a request the server does not wait for what does not come. -/
def InStep : LegacyConn → Prop
  | .idle last line => AllSwapped line.received ∧ (line.lost = false → line.input = [] ∧
      ∀ r vlen command, last = some (r, vlen) → LegacyCommand.ofCode r.command = some command →
        Replies vlen command r.body line.received)
  | .serving _ _ talk line => AllSwapped line.received ∧ ¬ Waits (talk, line)
  | .closed line => AllSwapped line.received

/-! ## The condition -/

def EntriesFit (cfg : LegacyConfig) (ops : LegacyOps) (r : LegacyRequest) : Prop :=
  field r.body 4 4 ≤ writeMultiMaxCount → ops.buffer = true →
    ((field r.body 8 4).testBit 0 = true → field r.body 4 4 ≠ 0 → ops.statusBytes = true) →
    ∀ list, r.phase = .entries list → ∀ e ∈ list,
      e.data.length ≤ writeMultiMaxEntry ∧ cfg.rwAllowed e.data.length = true

def TextFits (ops : LegacyOps) (r : LegacyRequest) (length : Nat) : Prop :=
  if r.textFirst then length = 0 ∨ length ≤ 4096 ∧ ops.buffer = true
  else length = 0 ∨ 4096 < length ∨ ops.buffer = false

def KeepsCommand (cfg : LegacyConfig) (ops : LegacyOps) (r : LegacyRequest) :
    LegacyCommand → Prop
  | .procWriteMulti => EntriesFit cfg ops r
  | .disasm => DisasmFails cfg ops r.body
  | .xrefs => XrefsFails cfg ops r.body
  | .procCall => ProcCallFails ops r.body
  | .procElfLoad => ProcElfLoadFails ops r.body
  | .consolePrint => TextFits ops r (announcedBytes r.body .consolePrint)
  | .consoleNotify => TextFits ops r (announcedBytes r.body .consoleNotify)
  | command => IsQuickscan command →
    (quickscanCall ops.quickscan r.body command).Fitting cfg.pairCapacity ops.quickscan.realloc

/-- When a request keeps the stream in step. -/
def Keeps (cfg : LegacyConfig) (ops : LegacyOps) (r : LegacyRequest) : Prop :=
  ∀ command, LegacyCommand.ofCode r.command = some command → KeepsCommand cfg ops r command

/-! ## Serving -/

def Served (vlen : Nat) (command : Option LegacyCommand) (body : List UInt8) (st : Status)
    (l : Line UInt8 Piece) : Prop :=
  l.lost = false → st ≠ .errNet →
    l.input = [] ∧ ∀ c, command = some c → Replies vlen c body l.received

abbrev Serves (vlen : Nat) (command : Option LegacyCommand) (body : List UInt8) (talk : LegacyTalk)
    (l : Line UInt8 Piece) : Prop :=
  talk.Ensures accepts (fun l => AllSwapped l.received) (Served vlen command body) l

section Serves

variable {vlen : Nat} {command : Option LegacyCommand} {body : List UInt8} {l : Line UInt8 Piece}

theorem serves_errNet (h : AllSwapped l.received) : Serves vlen command body (.done .errNet) l :=
  ⟨h, fun _ hst => absurd rfl hst⟩

theorem serves_sendAll {writes : List (List Piece)} {next : LegacyTalk}
    (hwrites : AllSwapped writes.flatten) (hl : AllSwapped l.received)
    (hnext : Serves vlen command body next (writes.foldl (Line.deliver accepts) l)) :
    Serves vlen command body (sendAll writes next) l := by
  induction writes generalizing l with
  | nil => exact hnext
  | cons write writes ih =>
    have hwrite : AllSwapped write := fun piece hmem =>
      hwrites piece (mem_append_left _ hmem)
    have hrest : AllSwapped writes.flatten := fun piece hmem =>
      hwrites piece (mem_append_right _ hmem)
    refine ⟨hl, ih hrest (allSwapped_append hl hwrite) hnext, fun received hpre => ?_⟩
    exact serves_errNet (allSwapped_append hl fun piece hmem => hwrite piece (hpre.subset hmem))

theorem serves_answer {writes : List (List Piece)} (hwrites : AllSwapped writes.flatten)
    (hl : AllSwapped l.received) (hheld : l.held = [])
    (h : l.lost = false → l.input = [] ∧
      ∀ c, command = some c → Replies vlen c body (l.received ++ writes.flatten)) :
    Serves vlen command body (answer writes) l := by
  refine serves_sendAll hwrites hl ?_
  rw [Line.foldl_deliver_of_held hheld]
  exact ⟨allSwapped_append hl hwrites, fun hlost _ => h hlost⟩

theorem serves_sendWrites {writes : List (List Piece)} (hwrites : AllSwapped writes.flatten)
    (hl : AllSwapped l.received) (hheld : l.held = [])
    (h : l.lost = false → l.input = [] ∧
      ∀ c, command = some c → Replies vlen c body (l.received ++ writes.flatten)) :
    Serves vlen command body (sendWrites writes) l := by
  induction writes generalizing l with
  | nil =>
    refine ⟨hl, fun hlost _ => ?_⟩
    rw [flatten_nil, append_nil] at h
    exact h hlost
  | cons write writes ih =>
    have hwrite : AllSwapped write := fun piece hmem =>
      hwrites piece (mem_append_left _ hmem)
    have hrest : AllSwapped writes.flatten := fun piece hmem =>
      hwrites piece (mem_append_right _ hmem)
    refine ⟨hl, ih hrest (allSwapped_append hl hwrite) rfl fun hlost => ?_, fun received hpre => ?_⟩
    · rw [Line.input_deliver_of_held hheld, Line.received_deliver, append_assoc]
      exact h hlost
    · exact ⟨allSwapped_append hl fun piece hmem => hwrite piece (hpre.subset hmem), nofun⟩

theorem serves_refusal {code : UInt32} (hcode : code ≠ cmdSuccess) (hl : l.received = [])
    (hinput : l.lost = false → l.input = []) : Serves vlen command body (sendStatus code) l := by
  have hrefused : accepts (statusWord code) = false :=
    beq_eq_false_iff_ne.mpr fun heq => hcode (legacyBitswap32_injective heq)
  have hswapped := allSwapped_statusWord code
  refine serves_sendAll (allSwapped_append hswapped nofun) (by rw [hl]; nofun) ?_
  refine ⟨?_, fun hlost _ => ⟨?_, fun c _ hsuccess => ?_⟩⟩
  · change AllSwapped (l.received ++ statusWord code)
    rw [hl]
    exact hswapped
  · change (l.deliver accepts (statusWord code)).input = []
    rw [Line.input_deliver_of_refused hrefused]
    exact hinput hlost
  · rw [foldl_cons, foldl_nil, Line.received_deliver, hl] at hsuccess
    exact absurd hsuccess hcode

structure Fresh (l : Line UInt8 Piece) (input held : List UInt8) : Prop where
  lost : l.lost = false
  received : l.received = []
  input : l.input = input
  held : l.held = held

theorem Answers.serves {c : LegacyCommand} {talk : LegacyTalk} (h : Answers vlen c body talk)
    (hl : Fresh l [] []) : Serves vlen (some c) body talk l := by
  have hswapped : AllSwapped l.received := by
    rw [hl.received]
    nofun
  cases h with
  | refusal hcode => exact serves_refusal hcode hl.received fun _ => hl.input
  | reply hwrites hannounced =>
    refine serves_answer hwrites hswapped hl.held fun _ => ⟨hl.input, ?_⟩
    rintro _ ⟨⟩ -
    rw [hl.received]
    exact hannounced
  | scan hwrites hannounced =>
    refine serves_sendWrites hwrites hswapped hl.held fun _ => ⟨hl.input, ?_⟩
    rintro _ ⟨⟩ -
    rw [hl.received]
    exact hannounced

end Serves

/-! ## Data phases -/

section Data

variable {vlen : Nat} {command : LegacyCommand} {body : List UInt8} {l : Line UInt8 Piece}

theorem Fresh.allSwapped {input held : List UInt8} (h : Fresh l input held) :
    AllSwapped l.received := by
  rw [h.received]
  nofun

structure Accepted (l : Line UInt8 Piece) (data : List UInt8) : Prop where
  lost : l.lost = false
  received : l.received = statusWord cmdSuccess
  input : l.input = data
  held : l.held = []

theorem Accepted.allSwapped {data : List UInt8} (h : Accepted l data) : AllSwapped l.received := by
  rw [h.received]
  exact allSwapped_statusWord _

theorem serves_accepting {next : LegacyTalk} {data : List UInt8} (hl : Fresh l [] data)
    (h : ∀ l', Accepted l' data → Serves vlen (some command) body next l') :
    Serves vlen (some command) body (sendAll [statusWord cmdSuccess] next) l := by
  have haccepts : accepts (statusWord cmdSuccess) = true := beq_self_eq_true _
  refine serves_sendAll (allSwapped_append (allSwapped_statusWord _) nofun) hl.allSwapped ?_
  refine h _ ⟨hl.lost, ?_, ?_, rfl⟩
  · change l.received ++ statusWord cmdSuccess = _
    rw [hl.received, nil_append]
  · change (l.deliver accepts (statusWord cmdSuccess)).input = data
    rw [Line.input_deliver_of_accepted haccepts, hl.input, hl.held, nil_append]

theorem serves_lastStatus {code : UInt32} (hannounced : Announced vlen body [] command)
    (hl : Accepted l []) : Serves vlen (some command) body (sendStatus code) l := by
  refine serves_answer (allSwapped_append (allSwapped_statusWord _) nofun) hl.allSwapped hl.held
    fun _ => ⟨hl.input, ?_⟩
  rintro _ ⟨⟩ -
  rw [hl.received]
  exact hannounced

theorem serves_recvChunks {write : Nat → List UInt8 → Bool} {next : Bool → LegacyTalk} (rem : Nat)
    {address : Nat} {failed : Bool} (hlost : l.lost = false) (hl : AllSwapped l.received)
    (hrem : rem ≤ l.input.length)
    (hnext : ∀ failed, Serves vlen (some command) body (next failed) (l.consume rem)) :
    Serves vlen (some command) body (recvChunks write address rem failed next) l := by
  induction rem using Nat.strong_induction_on generalizing l address failed with
  | _ rem ih =>
    rw [recvChunks]
    split_ifs with hzero
    · subst hzero
      exact hnext failed
    have hchunk : 0 < legacyRwChunk := by decide
    refine ⟨hl, fun _ => ⟨(Nat.min_le_left _ _).trans hrem, ?_⟩, serves_errNet hl⟩
    refine ih (rem - min rem legacyRwChunk) (by omega) hlost hl ?_ fun failed' => ?_
    · rw [Line.input_consume, length_drop]
      omega
    · rw [Line.consume_consume, Nat.add_sub_cancel' (Nat.min_le_left _ _)]
      exact hnext failed'

theorem consume_of_accepted {data rest : List UInt8} {n : Nat} (hl : Accepted l (data ++ rest))
    (hn : n = data.length) : Accepted (l.consume n) rest := by
  refine ⟨hl.lost, hl.received, ?_, hl.held⟩
  rw [Line.input_consume, hl.input, hn, drop_left]

theorem accepted_append_nil {data : List UInt8} (hl : Accepted l data) :
    Accepted l (data ++ []) := by
  rwa [append_nil]

theorem serves_written {write : Nat → List UInt8 → Bool} {address length : Nat}
    {data : List UInt8} (hannounced : Announced vlen body [] command) (hdata : data.length = length)
    (hl : Accepted l data) {code : Bool → UInt32} :
    Serves vlen (some command) body
      (recvChunks write address length false fun failed => sendStatus (code failed)) l := by
  refine serves_recvChunks length hl.lost hl.allSwapped (hl.input ▸ hdata.ge) fun failed => ?_
  exact serves_lastStatus hannounced (consume_of_accepted (accepted_append_nil hl) hdata.symm)

theorem serves_recv {length : Nat} {data : List UInt8} (hannounced : Announced vlen body [] command)
    (hdata : data.length = length) (hl : Accepted l data) {status : List UInt8 → Status} :
    Serves vlen (some command) body (.recv length fun
      | none => .done .errNet
      | some bytes => sendMemdbgStatus (status bytes)) l := by
  refine ⟨hl.allSwapped, fun _ => ⟨hl.input ▸ hdata.ge, ?_⟩, serves_errNet hl.allSwapped⟩
  exact serves_lastStatus hannounced (consume_of_accepted (accepted_append_nil hl) hdata.symm)

theorem serves_recvEntries {cfg : LegacyConfig} {write : Nat → List UInt8 → Bool}
    {next : List Bool → LegacyTalk} (entries : List WriteEntry) {failures : List Bool}
    (hl : Accepted l (entries.flatMap WriteEntry.bytes))
    (hfits : ∀ e ∈ entries,
      e.data.length ≤ writeMultiMaxEntry ∧ cfg.rwAllowed e.data.length = true)
    (hnext : ∀ failures' l', failures'.length = failures.length + entries.length →
      Accepted l' [] → Serves vlen (some command) body (next failures') l') :
    Serves vlen (some command) body (recvEntries cfg write entries.length failures next) l := by
  induction entries generalizing l failures with
  | nil => exact hnext failures l rfl hl
  | cons e entries ih =>
    rw [flatMap_cons, WriteEntry.bytes, append_assoc] at hl
    have hheader : (leBytes 8 e.address ++ leBytes 4 e.data.length).length = 12 := by
      rw [length_append, length_leBytes, length_leBytes]
    have htwelve : 12 ≤ l.input.length := by
      rw [hl.input, length_append, hheader]
      exact Nat.le_add_right _ _
    have hlength : field (l.input.take 12) 8 4 = e.data.length := by
      have hlt : e.data.length < 256 ^ 4 := e.length_data_lt
      rw [hl.input, take_left' hheader, field, drop_left' (length_leBytes _ _),
        take_of_length_le (length_leBytes _ _).le, leNat_leBytes, Nat.mod_eq_of_lt hlt]
    refine ⟨hl.allSwapped, fun _ => ⟨htwelve, ?_⟩, serves_errNet hl.allSwapped⟩
    obtain ⟨hmax, hallowed⟩ := hfits e (mem_cons_self ..)
    have hwithin : ¬ (e.data.length > writeMultiMaxEntry ∨
        cfg.rwAllowed e.data.length = false) :=
      not_or.mpr ⟨not_lt.mpr hmax, by rw [hallowed]; nofun⟩
    have hdata : Accepted (l.consume 12) (e.data ++ entries.flatMap WriteEntry.bytes) :=
      consume_of_accepted hl hheader.symm
    dsimp only
    rw [hlength, if_neg hwithin]
    refine serves_recvChunks _ hdata.lost hdata.allSwapped ?_ fun failed => ?_
    · rw [hdata.input, length_append]
      exact Nat.le_add_right _ _
    · refine ih (consume_of_accepted hdata rfl) (fun e he => hfits e (mem_cons_of_mem _ he))
        fun failures' l' hfailures hl' => hnext failures' l' ?_ hl'
      rw [hfailures, length_append, length_singleton, length_cons]
      omega

end Data

/-! ## The handlers with a data phase -/

section Handlers

variable {vlen : Nat} {cfg : LegacyConfig} {ops : LegacyOps} {body : List UInt8}
  {l : Line UInt8 Piece}

theorem hasBody_of_ne_false {n : Nat} (h : ¬ hasBody body n = false) : hasBody body n = true :=
  eq_true_of_ne_false h

theorem serves_memoryWrite {data : List UInt8} (hl : Fresh l [] data)
    (hdata : data.length = announcedBytes body .procWrite) :
    Serves vlen (some .procWrite) body (legacyHandleMemoryWrite cfg ops body) l := by
  unfold legacyHandleMemoryWrite
  split_ifs with hbody hallowed halloc
  · exact serves_refusal (by decide) hl.received fun _ => hl.input
  · exact serves_refusal (by decide) hl.received fun _ => hl.input
  · exact serves_refusal (by decide) hl.received fun _ => hl.input
  · rw [announcedBytes, if_pos (hasBody_of_ne_false hbody)] at hdata
    have hannounced : Announced vlen body [] .procWrite := trivial
    exact serves_accepting hl fun l' hl' => serves_written hannounced hdata hl'

theorem serves_kernWrite {data : List UInt8} (hl : Fresh l [] data)
    (hdata : data.length = announcedBytes body .kernWrite) :
    Serves vlen (some .kernWrite) body (legacyHandleKernWrite cfg ops body) l := by
  unfold legacyHandleKernWrite
  split_ifs with hsupported hbody hallowed halloc
  · exact serves_refusal (by decide) hl.received fun _ => hl.input
  · exact serves_refusal (by decide) hl.received fun _ => hl.input
  · exact serves_refusal (by decide) hl.received fun _ => hl.input
  · exact serves_refusal (by decide) hl.received fun _ => hl.input
  · rw [announcedBytes, if_pos (hasBody_of_ne_false hbody)] at hdata
    have hannounced : Announced vlen body [] .kernWrite := trivial
    exact serves_accepting hl fun l' hl' => serves_recv hannounced hdata hl'

theorem payload_writeMulti (failures : List Bool) (wantStatus : Bool) :
    (payload (statusWord cmdSuccess ++ ((if wantStatus then
      sendBlob (failures.map fun failed => if failed then 1 else 0) else []) ++
        [statusWord cmdSuccess]).flatten)).length = if wantStatus then failures.length else 0 := by
  have hlast : payload [statusWord cmdSuccess].flatten = [] := rfl
  rw [payload_append, payload_statusWord, nil_append, flatten_append, payload_append,
    hlast, append_nil]
  cases wantStatus with
  | false => rfl
  | true =>
    rw [if_pos rfl, if_pos rfl, payload_sendBlob, length_map]

theorem serves_writeMulti {entries : List WriteEntry}
    (hl : Fresh l [] (entries.flatMap WriteEntry.bytes))
    (hentries : entries.length = if hasBody body 12 then field body 4 4 else 0)
    (hfits : field body 4 4 ≤ writeMultiMaxCount → ops.buffer = true →
      ((field body 8 4).testBit 0 = true → field body 4 4 ≠ 0 → ops.statusBytes = true) →
      ∀ e ∈ entries, e.data.length ≤ writeMultiMaxEntry ∧ cfg.rwAllowed e.data.length = true) :
    Serves vlen (some .procWriteMulti) body (legacyHandleWriteMulti cfg ops body) l := by
  have hrefused : ∀ {code : UInt32}, code ≠ cmdSuccess →
      Serves vlen (some .procWriteMulti) body (sendStatus code) l :=
    fun hcode => serves_refusal hcode hl.received fun _ => hl.input
  unfold legacyHandleWriteMulti
  by_cases hbody : hasBody body 12 = false
  · rw [if_pos hbody]
    exact hrefused (by decide)
  by_cases hcount : field body 4 4 > writeMultiMaxCount
  · rw [if_neg hbody, if_pos hcount]
    exact hrefused (by decide)
  by_cases halloc : ops.buffer = false
  · rw [if_neg hbody, if_neg hcount, if_pos halloc]
    exact hrefused (by decide)
  by_cases hstatus : (field body 8 4).testBit 0 = true ∧ field body 4 4 ≠ 0 ∧
      ops.statusBytes = false
  · rw [if_neg hbody, if_neg hcount, if_neg halloc, if_pos hstatus]
    exact hrefused (by decide)
  rw [if_neg hbody, if_neg hcount, if_neg halloc, if_neg hstatus]
  rw [if_pos (hasBody_of_ne_false hbody)] at hentries
  have hall := hfits (not_lt.mp hcount) (eq_true_of_ne_false halloc) fun hwant hne =>
    eq_true_of_ne_false fun hmissing => hstatus ⟨hwant, hne, hmissing⟩
  refine serves_accepting hl fun l' hl' => ?_
  rw [← hentries]
  refine serves_recvEntries entries hl' hall fun failures l'' hfailures hl'' => ?_
  refine serves_answer ?_ hl''.allSwapped hl''.held fun _ => ⟨hl''.input, ?_⟩
  · rw [flatten_append]
    refine allSwapped_append ?_ (allSwapped_append (allSwapped_statusWord _) nofun)
    split_ifs
    · exact allSwapped_sendBlob _
    · nofun
  · rintro _ ⟨⟩ -
    rw [hl''.received]
    change (payload _).length = _
    rw [payload_writeMulti, hfailures, hentries, length_nil, Nat.zero_add]

theorem serves_consoleText {command : LegacyCommand}
    (hcommand : ∀ bytes, Announced vlen body bytes command)
    {data : List UInt8} {first : Bool}
    (hl : Fresh l (if first then data else []) (if first then [] else data))
    (hfits : if first then data.length = 0 ∨ data.length ≤ 4096 ∧ ops.buffer = true
      else data.length = 0 ∨ 4096 < data.length ∨ ops.buffer = false) :
    Serves vlen (some command) body (legacyConsoleText ops data.length) l := by
  have hrefused : ∀ {st : Status}, st ≠ .ok → (first = true → data.length = 0) →
      Serves vlen (some command) body (sendMemdbgStatus st) l := fun hst hempty => by
    refine serves_refusal (legacyStatusFromMemdbg_ne_success hst) hl.received fun _ => ?_
    rw [hl.input]
    split_ifs with hfirst
    · exact length_eq_zero_iff.mp (hempty hfirst)
    · rfl
  unfold legacyConsoleText
  split_ifs with hlong halloc hzero
  · refine hrefused nofun fun hfirst => ?_
    rw [if_pos hfirst] at hfits
    omega
  · refine hrefused nofun fun hfirst => ?_
    rw [if_pos hfirst, halloc] at hfits
    exact hfits.elim id fun h => absurd h.2 Bool.false_ne_true
  · obtain rfl := length_eq_zero_iff.mp hzero
    rw [ite_self] at hl
    exact (Answers.memdbgStatus (hcommand _)).serves hl
  · cases first with
    | false =>
      rw [if_neg Bool.false_ne_true] at hfits
      exact absurd hfits (not_or.mpr ⟨hzero, not_or.mpr ⟨hlong, halloc⟩⟩)
    | true =>
      rw [if_pos rfl, if_pos rfl] at hl
      refine ⟨hl.allSwapped, fun _ => ⟨hl.input ▸ le_rfl, ?_⟩, ?_⟩
      · refine (Answers.memdbgStatus (hcommand _)).serves ⟨hl.lost, hl.received, ?_, hl.held⟩
        rw [Line.input_consume, hl.input, drop_length]
      · exact serves_answer (allSwapped_append (allSwapped_statusWord _) nofun) hl.allSwapped
          hl.held fun hlost => absurd hlost nofun

theorem setRegisters_refused {command : LegacyCommand}
    (h : command ∈ [.debugSetRegs, .debugSetFpregs, .debugSetDbregs, .debugSetFsgsbase]) :
    legacyHandleDebugCommand ops command body = sendMemdbgStatus .errParam := by
  have hrefused : (if hasBody body 4 = false then sendMemdbgStatus .errParam
      else if hasBody body 8 = false then sendMemdbgStatus .errParam
      else legacyDebugSetBlob ops command body) = sendMemdbgStatus .errParam := by
    split_ifs with hfour height
    · rfl
    · rfl
    · exact absurd (hasBody_eight_of_four hfour) height
  cases command with
  | debugSetRegs => exact hrefused
  | debugSetFpregs => exact hrefused
  | debugSetDbregs => exact hrefused
  | debugSetFsgsbase => exact hrefused
  | _ => exact absurd h (by decide)

end Handlers

/-! ## Requests -/

section Requests

variable {cfg : LegacyConfig} {ops : LegacyOps} {r : LegacyRequest} {command : LegacyCommand}
  {l : Line UInt8 Piece}

theorem length_wire (hc : LegacyCommand.ofCode r.command = some command)
    (hmulti : command ≠ .procWriteMulti) :
    r.phase.wire.length = announcedBytes r.body command := by
  have h := r.announces
  rw [hc] at h
  rcases hphase : r.phase with data | list
  · rw [hphase] at h
    cases command with
    | procWriteMulti => contradiction
    | _ => exact h
  · rw [hphase] at h
    cases command with
    | procWriteMulti => contradiction
    | _ => exact h.elim

theorem ahead_eq_false (hprint : LegacyCommand.ofCode r.command ≠ some .consolePrint)
    (hnotify : LegacyCommand.ofCode r.command ≠ some .consoleNotify) : r.ahead = false := by
  rw [LegacyRequest.ahead, beq_eq_false_iff_ne.mpr hprint, beq_eq_false_iff_ne.mpr hnotify,
    Bool.or_false, Bool.and_false]

theorem fresh_of_waiting (hprint : LegacyCommand.ofCode r.command ≠ some .consolePrint)
    (hnotify : LegacyCommand.ofCode r.command ≠ some .consoleNotify)
    (hl : Fresh l r.early r.held) : Fresh l [] r.phase.wire := by
  rw [LegacyRequest.early, LegacyRequest.held, ahead_eq_false hprint hnotify] at hl
  exact hl

def TakesNoData : LegacyCommand → Prop
  | .procWrite | .procWriteMulti | .kernWrite | .consolePrint | .consoleNotify | .debugSetRegs
  | .debugSetFpregs | .debugSetDbregs | .debugSetFsgsbase => False
  | _ => True

theorem legacyHandle_of_isDebug (h : IsDebug command) :
    legacyHandle cfg ops r.body command = legacyHandleDebugCommand ops command r.body := by
  cases command with
  | _ => first | rfl | exact h.elim

theorem legacyHandle_of_isQuickscan (h : IsQuickscan command) :
    legacyHandle cfg ops r.body command =
      sendBridge cfg ops.quickscan (quickscanCall ops.quickscan r.body command) := by
  cases command with
  | _ => first | rfl | exact h.elim

theorem keepsCommand_of_isQuickscan (h : IsQuickscan command)
    (hkeeps : KeepsCommand cfg ops r command) :
    (quickscanCall ops.quickscan r.body command).Fitting cfg.pairCapacity
      ops.quickscan.realloc := by
  cases command with
  | _ => first | exact hkeeps trivial | exact h.elim

theorem answers_legacyHandle (hnoData : TakesNoData command)
    (hkeeps : KeepsCommand cfg ops r command) :
    Answers ops.quickscan.session.valueLen command r.body
      (legacyHandle cfg ops r.body command) := by
  by_cases hdebug : IsDebug command
  · rw [legacyHandle_of_isDebug hdebug]
    exact answers_debugCommand ops r.body hdebug
  by_cases hquickscan : IsQuickscan command
  · rw [legacyHandle_of_isQuickscan hquickscan]
    exact answers_sendBridge hquickscan (keepsCommand_of_isQuickscan hquickscan hkeeps)
  cases command with
  | version => exact answers_sendSizedString _ (by decide) (.inl rfl)
  | branding => exact answers_sendSizedString _ (by decide) (.inr rfl)
  | fwVersion => exact .reply (allSwapped_blob _) trivial
  | platformId => exact .reply (allSwapped_blob _) trivial
  | procNop => exact .status trivial
  | procAuth => exact .status trivial
  | procList => exact answers_processList ops r.body
  | procRead => exact answers_memoryRead cfg ops r.body
  | procMaps => exact answers_processMaps ops r.body
  | procInstall => exact .success trivial
  | procCall => exact answers_procCall hkeeps
  | procElfLoad => exact answers_procElfLoad hkeeps
  | procProtect => exact answers_processProtect ops r.body
  | procInfo => exact answers_processInfo ops r.body
  | procAlloc => exact answers_processAlloc ops r.body fun _ => trivial
  | procFree => exact answers_processFree ops r.body
  | procFirstMap => exact answers_firstMap ops r.body
  | procAllocHinted => exact answers_processAlloc ops r.body fun _ => trivial
  | scan => exact answers_sendScan ops r.body trivial fun _ => scanExactOver_error_ne r.body
  | scanAob => exact answers_sendScan ops r.body trivial fun _ => scanAobOver_error_ne r.body
  | scanFetch => exact answers_scanCont ops r.body
  | debugAttach => exact answers_debugAttach ops r.body
  | kernBase => exact answers_kernBase ops r.body
  | kernRead => exact answers_kernRead cfg ops r.body
  | consoleReboot => exact answers_reboot cfg ops r.body
  | consoleEnd => exact .status trivial
  | consoleInfo => exact .status trivial
  | consoleForeground => exact answers_foreground ops r.body
  | disasm => exact answers_disasm hkeeps
  | xrefs => exact answers_xrefs hkeeps
  | _ => first
    | exact hnoData.elim
    | exact absurd trivial hdebug
    | exact absurd trivial hquickscan

theorem announcedBytes_of_takesNoData (h : TakesNoData command) (body : List UInt8) :
    announcedBytes body command = 0 := by
  cases command with
  | _ => first | rfl | exact h.elim

theorem serves_text {size offset : Nat} (hc : LegacyCommand.ofCode r.command = some command)
    (hcommand : command = .consolePrint ∨ command = .consoleNotify)
    (hbytes : announcedBytes r.body command =
      if hasBody r.body size then field r.body offset 4 else 0)
    (hkeeps : TextFits ops r (announcedBytes r.body command)) (hl : Fresh l r.early r.held) :
    Serves ops.quickscan.session.valueLen (some command) r.body
      (if hasBody r.body size = false then sendStatus cmdDataNull
      else legacyConsoleText ops (field r.body offset 4)) l := by
  have hahead : r.ahead = r.textFirst := by
    rw [LegacyRequest.ahead, hc]
    rcases hcommand with rfl | rfl
    · exact Bool.and_true _
    · exact Bool.and_true _
  have hannounced : ∀ bytes, Announced ops.quickscan.session.valueLen r.body bytes command := by
    rcases hcommand with rfl | rfl
    · exact fun _ => trivial
    · exact fun _ => trivial
  have hmulti : command ≠ .procWriteMulti := by
    rcases hcommand with rfl | rfl
    · nofun
    · nofun
  rw [LegacyRequest.early, LegacyRequest.held, hahead] at hl
  have hlength := length_wire hc hmulti
  rcases Bool.eq_false_or_eq_true (hasBody r.body size) with hbody | hbody
  · rw [hbytes, if_pos hbody] at hlength hkeeps
    rw [if_neg (by rw [hbody]; nofun)]
    rw [← hlength] at hkeeps ⊢
    exact serves_consoleText hannounced hl hkeeps
  · rw [hbytes, hbody, if_neg Bool.false_ne_true] at hlength
    rw [length_eq_zero_iff.mp hlength, ite_self] at hl
    rw [if_pos hbody]
    exact serves_refusal (by decide) hl.received fun _ => hl.input

theorem serves_dispatch (hkeeps : Keeps cfg ops r) (hl : Fresh l r.early r.held) :
    Serves ops.quickscan.session.valueLen (LegacyCommand.ofCode r.command) r.body
      (legacyDispatch cfg ops r.command r.body) l := by
  unfold legacyDispatch
  rcases hc : LegacyCommand.ofCode r.command with _ | command
  · have hfresh := fresh_of_waiting (by rw [hc]; nofun) (by rw [hc]; nofun) hl
    exact serves_refusal (by decide) hfresh.received fun _ => hfresh.input
  have hkeeps := hkeeps command hc
  have hwaiting : some command ≠ some .consolePrint → some command ≠ some .consoleNotify →
      Fresh l [] r.phase.wire :=
    fun hprint hnotify => fresh_of_waiting (hc.trans_ne hprint) (hc.trans_ne hnotify) hl
  have hset : command ∈ [.debugSetRegs, .debugSetFpregs, .debugSetDbregs, .debugSetFsgsbase] →
      Fresh l [] r.phase.wire →
      Serves ops.quickscan.session.valueLen (some command) r.body
        (legacyHandleDebugCommand ops command r.body) l := by
    intro hmem hfresh
    rw [setRegisters_refused hmem]
    exact serves_refusal (by decide) hfresh.received fun _ => hfresh.input
  by_cases hnoData : TakesNoData command
  · have hprint : some command ≠ some .consolePrint := by
      rintro ⟨⟩
      exact hnoData
    have hnotify : some command ≠ some .consoleNotify := by
      rintro ⟨⟩
      exact hnoData
    have hmulti : command ≠ .procWriteMulti := by
      rintro rfl
      exact hnoData
    have hfresh := hwaiting hprint hnotify
    have hlength := (length_wire hc hmulti).trans (announcedBytes_of_takesNoData hnoData _)
    rw [length_eq_zero_iff.mp hlength] at hfresh
    exact (answers_legacyHandle hnoData hkeeps).serves hfresh
  cases command with
  | procWrite => exact serves_memoryWrite (hwaiting nofun nofun) (length_wire hc nofun)
  | kernWrite => exact serves_kernWrite (hwaiting nofun nofun) (length_wire hc nofun)
  | procWriteMulti =>
    have hfresh := hwaiting nofun nofun
    have hannounces := r.announces
    rw [hc] at hannounces
    rcases hphase : r.phase with data | list
    · rw [hphase] at hannounces
      exact hannounces.elim
    · rw [hphase] at hannounces hfresh
      exact serves_writeMulti hfresh hannounces fun hcount halloc hstatus =>
        hkeeps hcount halloc hstatus list hphase
  | debugSetRegs => exact hset (by decide) (hwaiting nofun nofun)
  | debugSetFpregs => exact hset (by decide) (hwaiting nofun nofun)
  | debugSetDbregs => exact hset (by decide) (hwaiting nofun nofun)
  | debugSetFsgsbase => exact hset (by decide) (hwaiting nofun nofun)
  | consolePrint => exact serves_text hc (.inl rfl) rfl hkeeps hl
  | consoleNotify => exact serves_text hc (.inr rfl) rfl hkeeps hl
  | _ => exact absurd trivial hnoData

/-! ## A turn of the loop -/

theorem length_header : r.header.length = 12 := by
  simp only [LegacyRequest.header, length_append, length_leBytes]

theorem field_leBytes {n width offset : Nat} {before : List UInt8} (after : List UInt8)
    (hn : n < 256 ^ width) (hoffset : before.length = offset) :
    field (before ++ (leBytes width n ++ after)) offset width = n := by
  rw [field, drop_left' hoffset, take_left' (length_leBytes _ _), leNat_leBytes,
    Nat.mod_eq_of_lt hn]

theorem field_magic : field r.header 0 4 = r.magic := by
  have h := @field_leBytes r.magic 4 0 [] (leBytes 4 r.command ++ leBytes 4 r.body.length)
    r.magic_lt rfl
  rwa [nil_append, ← append_assoc] at h

theorem field_command : field r.header 4 4 = r.command := by
  have h := @field_leBytes r.command 4 4 (leBytes 4 r.magic) (leBytes 4 r.body.length)
    r.command_lt (length_leBytes _ _)
  rwa [← append_assoc] at h

theorem field_dataLen : field r.header 8 4 = r.body.length := by
  have hbefore : (leBytes 4 r.magic ++ leBytes 4 r.command).length = 8 := by
    rw [length_append, length_leBytes, length_leBytes]
  have h := @field_leBytes r.body.length 4 8 _ [] r.length_body_lt hbefore
  rwa [append_nil] at h

theorem serves_handlePacket (hkeeps : Keeps cfg ops r)
    (hl : Fresh l (r.body ++ r.early) r.held) :
    Serves ops.quickscan.session.valueLen (LegacyCommand.ofCode r.command) r.body
      (legacyHandlePacket cfg ops r.header) l := by
  unfold legacyHandlePacket
  rw [field_magic, field_command, field_dataLen]
  dsimp only
  have hclosing : ∀ code : UInt32,
    Serves ops.quickscan.session.valueLen (LegacyCommand.ofCode r.command) r.body
      (sendAll [statusWord code] (.done .errNet)) l := fun code => by
    have hword : AllSwapped ([statusWord code].flatten) :=
      allSwapped_append (allSwapped_statusWord code) nofun
    refine serves_sendAll hword hl.allSwapped (serves_errNet ?_)
    exact allSwapped_append hl.allSwapped (allSwapped_statusWord code)
  split_ifs with hbad hempty hbuffer
  · exact hclosing _
  · have hbody : r.body = [] := length_eq_zero_iff.mp hempty
    have hserved := @serves_dispatch cfg ops r l hkeeps
    rw [hbody] at hl hserved ⊢
    exact hserved hl
  · exact hclosing _
  · refine ⟨hl.allSwapped, fun _ => ⟨?_, ?_⟩, serves_errNet hl.allSwapped⟩
    · rw [hl.input, length_append]
      exact Nat.le_add_right _ _
    · dsimp only
      rw [hl.input, take_left]
      refine serves_dispatch hkeeps ⟨hl.lost, hl.received, ?_, hl.held⟩
      rw [Line.input_consume, hl.input, drop_left]

theorem serves_handleClient (hkeeps : Keeps cfg ops r) (hl : l.lost = false → l.input = []) :
    Serves ops.quickscan.session.valueLen (LegacyCommand.ofCode r.command) r.body
      (legacyHandleClient cfg ops) (request r l) := by
  refine ⟨nofun, fun hlost => ?_, serves_errNet nofun⟩
  have hinput : (request r l).input = r.header ++ (r.body ++ r.early) := by
    change l.input ++ (r.header ++ r.body ++ r.early) = _
    rw [hl hlost, nil_append, append_assoc]
  rw [hinput]
  refine ⟨?_, ?_⟩
  · rw [length_append, length_header]
    exact Nat.le_add_right _ _
  · dsimp only
    rw [take_left' length_header]
    refine serves_handlePacket hkeeps ⟨hlost, rfl, ?_, rfl⟩
    rw [Line.input_consume, hinput, drop_left' length_header]

end Requests

/-! ## Calm operations -/

def defaultConfig : LegacyConfig where
  maxPacketBytes := 0x100000
  maxReadBytes := 0x100000
  maxScanResults := 50000
  pairCapacity := 0x10000
  four_le_pairCapacity := by decide
  platformId := 0
  hasReboot := false

def calmOps : LegacyOps where
  requestBuffer := true
  buffer := true
  statusBytes := true
  pair := true
  entriesBuffer := true
  responseBuffer := true
  processList := (.ok, [])
  processMapsCached _ := (.ok, [])
  processMaps _ := (.ok, [])
  processInfo pid := (.ok, ⟨pid, [], [], [], []⟩)
  memoryRead _ _ _ := []
  memoryWrite _ _ _ := true
  memoryAlloc _ _ _ _ := (.ok, 0x10000)
  memoryFree _ _ _ := .ok
  memoryProtect _ _ _ _ := .ok
  kernelSupported := false
  kernelBase := (.errUnsupported, 0)
  kernelRead _ _ := (.errUnsupported, [])
  kernelWrite _ _ := .errUnsupported
  debug := {
    supported := true
    isAttached := false
    attach _ := .ok
    threads := (.ok, [])
    stopLwp := 0
    attachedPid := 0
    step _ := .ok
    go := .ok
    stop := .ok
    kill _ _ := true
    setBreakpoint _ := .ok
    clearBreakpoint _ := .ok
    setWatchpoint _ _ _ := .ok
    clearWatchpoint _ := .ok
    suspendThread _ := .ok
    resumeThread _ := .ok
    getRegisters _ _ := (.ok, [])
    setRegisters _ _ _ := .ok
    breakpoints _ := 0
    watchpoints _ := 0 }
  disasm := .found 0 [] (by decide) rfl
  xrefs := .found 0 [] (by decide) rfl
  call := none
  elfLoad := none
  scanEnv := .readable .host (fun _ => 0) fun _ _ => 0
  scanAllocated := true
  scanSession := scanSessionReset
  scanned := ⟨0, [], rfl⟩
  quickscan := calmBridge

/-! ## In step -/

variable {cfg : LegacyConfig}

def Tracks : LegacyConn → Prop
  | .idle last line => InStep (.idle last line)
  | .serving r vlen talk line => Serves vlen (LegacyCommand.ofCode r.command) r.body talk line
  | .closed line => InStep (.closed line)

theorem Tracks.inStep {conn : LegacyConn} (h : Tracks conn) : InStep conn := by
  cases conn with
  | idle last line => exact h
  | serving r vlen talk line => exact ⟨h.invariant, h.not_waits⟩
  | closed line => exact h

theorem LegacyStep.tracks {conn conn' : LegacyConn} (hstep : LegacyStep cfg (Keeps cfg) conn conn')
    (h : Tracks conn) : Tracks conn' := by
  cases hstep with
  | request ops r hkeeps => exact serves_handleClient hkeeps fun hlost => (h.2 hlost).1
  | talk hstep => exact h.step hstep
  | next hst =>
    obtain ⟨hswapped, hserved⟩ := h
    refine ⟨hswapped, fun hlost => ⟨(hserved hlost hst).1, ?_⟩⟩
    rintro r vlen command ⟨⟩ hc
    exact (hserved hlost hst).2 command hc
  | close => exact h.1
  | stop => exact h.1

/-- In a run whose requests all keep the stream in step, it is in step. -/
theorem inStep_of_reaches {conn : LegacyConn} (h : LegacyReaches cfg (Keeps cfg) conn) :
    InStep conn := by
  have htracks : Tracks conn := by
    induction h with
    | refl => exact ⟨nofun, fun _ => ⟨rfl, nofun⟩⟩
    | tail _ hstep ih => exact hstep.tracks ih
  exact htracks.inStep

def shortWrite : LegacyRequest where
  magic := legacyPacketMagic
  command := 0xBDAA0003
  body := leBytes 4 5 ++ leBytes 8 0x1000 ++ leBytes 4 3
  phase := .bytes [1, 2, 3]
  textFirst := false
  magic_lt := by decide
  command_lt := by decide
  length_body_lt := by decide
  announces := rfl

theorem keeps_shortWrite : Keeps defaultConfig calmOps shortWrite := by
  intro command hc
  have hwrite : LegacyCommand.ofCode shortWrite.command = some .procWrite := rfl
  obtain rfl : .procWrite = command := Option.some.inj (hwrite.symm.trans hc)
  exact fun hquickscan => hquickscan.elim

theorem shortWrite_packet :
    legacyHandlePacket defaultConfig calmOps shortWrite.header = .recv 16 fun
      | none => .done .errNet
      | some body => legacyDispatch defaultConfig calmOps shortWrite.command body := by
  rfl

theorem length_body_shortWrite : shortWrite.body.length = 16 := rfl

theorem shortWrite_accepted :
    legacyDispatch defaultConfig calmOps shortWrite.command shortWrite.body =
      sendAll [statusWord cmdSuccess] (.recv 3 fun
        | none => .done .errNet
        | some _ => sendStatus cmdSuccess) := by
  have hloop : recvChunks (calmOps.memoryWrite 5) 0x1000 3 false (fun failed =>
      sendStatus (if failed then cmdError else cmdSuccess)) = .recv 3 fun
        | none => .done .errNet
        | some _ => sendStatus cmdSuccess := by
    rw [recvChunks, dif_neg (by decide)]
    refine congrArg (Talk.recv 3) (funext fun elements => ?_)
    cases elements with
    | none => rfl
    | some bytes =>
      dsimp only
      rw [recvChunks, dif_pos (by decide)]
      rfl
  rw [← hloop]
  rfl

theorem inStep_shortWrite :
    LegacyReaches defaultConfig (Keeps defaultConfig) (.idle (some (shortWrite, 0))
        ⟨[], [], statusWord cmdSuccess ++ statusWord cmdSuccess, false⟩) ∧
      InStep (.idle (some (shortWrite, 0))
        ⟨[], [], statusWord cmdSuccess ++ statusWord cmdSuccess, false⟩) := by
  have hrequest : LegacyReaches defaultConfig (Keeps defaultConfig) (.serving shortWrite 0
      (legacyHandleClient defaultConfig calmOps)
      ⟨shortWrite.header ++ (shortWrite.body ++ []), [1, 2, 3], [], false⟩) :=
    .single (.request calmOps shortWrite keeps_shortWrite)
  have hpacket : LegacyReaches defaultConfig (Keeps defaultConfig) (.serving shortWrite 0
      (legacyHandlePacket defaultConfig calmOps shortWrite.header)
      ⟨shortWrite.body ++ [], [1, 2, 3], [], false⟩) :=
    hrequest.tail (.talk (.got_append length_header))
  rw [shortWrite_packet] at hpacket
  have hbody : LegacyReaches defaultConfig (Keeps defaultConfig) (.serving shortWrite 0
      (legacyDispatch defaultConfig calmOps shortWrite.command shortWrite.body)
      ⟨[], [1, 2, 3], [], false⟩) :=
    hpacket.tail (.talk (.got_append length_body_shortWrite))
  rw [shortWrite_accepted] at hbody
  have hsent : LegacyReaches defaultConfig (Keeps defaultConfig) (.serving shortWrite 0 (.recv 3 fun
        | none => .done .errNet
        | some _ => sendStatus cmdSuccess)
      ⟨[1, 2, 3] ++ [], [], statusWord cmdSuccess, false⟩) :=
    hbody.tail (.talk .sent)
  have hthree : ([1, 2, 3] : List UInt8).length = 3 := rfl
  have hdata : LegacyReaches defaultConfig (Keeps defaultConfig) (.serving shortWrite 0
      (sendStatus cmdSuccess) ⟨[], [], statusWord cmdSuccess, false⟩) :=
    hsent.tail (.talk (.got_append hthree))
  have hidle : LegacyReaches defaultConfig (Keeps defaultConfig) (.idle (some (shortWrite, 0))
      ⟨[], [], statusWord cmdSuccess ++ statusWord cmdSuccess, false⟩) :=
    (hdata.tail (.talk .sent)).tail (.next nofun)
  exact ⟨hidle, inStep_of_reaches hidle⟩

/-! ## An entry that is too long -/

def longEntry : WriteEntry where
  address := 0x1000
  data := List.replicate 0x100001 0
  length_data_lt := by
    rw [length_replicate]
    decide

def longWriteMulti : LegacyRequest where
  magic := legacyPacketMagic
  command := 0xBDAACC04
  body := leBytes 4 5 ++ leBytes 4 1 ++ leBytes 4 0
  phase := .entries [longEntry]
  textFirst := false
  magic_lt := by decide
  command_lt := by decide
  length_body_lt := by decide
  announces := rfl

theorem longWriteMulti_packet :
    legacyHandlePacket defaultConfig calmOps longWriteMulti.header = .recv 12 fun
      | none => .done .errNet
      | some body => legacyDispatch defaultConfig calmOps longWriteMulti.command body := by
  rfl

theorem length_body_longWriteMulti : longWriteMulti.body.length = 12 := rfl

theorem longWriteMulti_accepted :
    legacyDispatch defaultConfig calmOps longWriteMulti.command longWriteMulti.body =
      sendAll [statusWord cmdSuccess] (recvEntries defaultConfig (calmOps.memoryWrite 5) 1 []
        fun _ => answer [statusWord cmdSuccess]) := by
  rfl

def longEntryHeader : List UInt8 := leBytes 8 0x1000 ++ leBytes 4 0x100001

theorem length_longEntryHeader : longEntryHeader.length = 12 := rfl

theorem bytes_longEntry : longEntry.bytes = longEntryHeader ++ longEntry.data := by
  have hdata : longEntry.data.length = 0x100001 := length_replicate
  rw [WriteEntry.bytes, hdata]
  rfl

theorem inStep_fails : ¬ ∀ cfg conn, LegacyReaches cfg (fun _ _ => True) conn → InStep conn := by
  intro h
  have hrequest : LegacyReaches defaultConfig (fun _ _ => True) (.serving longWriteMulti 0
      (legacyHandleClient defaultConfig calmOps) ⟨longWriteMulti.header ++
        (longWriteMulti.body ++ []), longEntry.bytes ++ [], [], false⟩) :=
    .single (.request calmOps longWriteMulti trivial)
  have hpacket : LegacyReaches defaultConfig (fun _ _ => True) (.serving longWriteMulti 0
      (legacyHandlePacket defaultConfig calmOps longWriteMulti.header)
      ⟨longWriteMulti.body ++ [], longEntry.bytes ++ [], [], false⟩) :=
    hrequest.tail (.talk (.got_append length_header))
  rw [longWriteMulti_packet] at hpacket
  have hbody : LegacyReaches defaultConfig (fun _ _ => True) (.serving longWriteMulti 0
      (legacyDispatch defaultConfig calmOps longWriteMulti.command longWriteMulti.body)
      ⟨[], longEntry.bytes ++ [], [], false⟩) :=
    hpacket.tail (.talk (.got_append length_body_longWriteMulti))
  rw [longWriteMulti_accepted, bytes_longEntry, append_nil] at hbody
  have hsent : LegacyReaches defaultConfig (fun _ _ => True) (.serving longWriteMulti 0
      (recvEntries defaultConfig (calmOps.memoryWrite 5) 1 []
        fun _ => answer [statusWord cmdSuccess])
      ⟨longEntryHeader ++ longEntry.data, [], statusWord cmdSuccess, false⟩) :=
    hbody.tail (.talk .sent)
  have hentry : LegacyReaches defaultConfig (fun _ _ => True) (.serving longWriteMulti 0
      (sendStatus cmdError) ⟨longEntry.data, [], statusWord cmdSuccess, false⟩) :=
    hsent.tail (.talk (.got_append length_longEntryHeader))
  have hidle : LegacyReaches defaultConfig (fun _ _ => True) (.idle (some (longWriteMulti, 0))
      ⟨longEntry.data ++ [], [], statusWord cmdSuccess ++ statusWord cmdError, false⟩) :=
    (hentry.tail (.talk .sent)).tail (.next nofun)
  have hread : longEntry.data ++ [] = [] := ((h _ _ hidle).2 rfl).1
  exact absurd (congrArg List.length hread) (by
    rw [append_nil, longEntry, length_replicate]
    decide)

end MemDbg.Legacy
