import MemDbg.Daemon.Ops
import MemDbg.Gdb.Regions
import Mathlib.Data.Fin.Basic

/-!
# Registers

A client numbers the registers from 0 to 56: the general ones, the floating-point unit and the
vector registers.  The bridge reads and writes them all at once or one by one; the last two kinds
lie in a block that the processor lays out.
-/

namespace MemDbg.Gdb

open List Lib Function Daemon.Dispatch

/-! ## The registers of the target -/

inductive RegField where
  | r15 | r14 | r13 | r12 | r11 | r10 | r9 | r8 | rdi | rsi | rbp | rbx | rdx | rcx | rax
  | trapno | fs | gs | err | es | ds | rip | cs | rflags | rsp | ss
deriving DecidableEq

def RegField.width : RegField → Nat
  | .fs | .gs | .es | .ds => 16
  | .trapno | .err => 32
  | _ => 64

abbrev DebugRegs := (f : RegField) → BitVec f.width

structure DebugFpregs where
  length : Nat
  data : Nat → UInt8

def fxsaveMinLen : Nat := 512

def ensureFxsave (fpregs : DebugFpregs) : DebugFpregs :=
  if fpregs.length < fxsaveMinLen then
    { length := fxsaveMinLen
      data := store fpregs.data fpregs.length
        (List.replicate (fxsaveMinLen - fpregs.length) 0) }
  else fpregs

/-! ## Register numbers -/

def gdbRegIsCore (regno : Int) : Bool := decide (0 ≤ regno ∧ regno < 24)

def gdbRegIsX87 (regno : Int) : Bool := decide (24 ≤ regno ∧ regno ≤ 39)

def gdbRegIsSse (regno : Int) : Bool := decide (40 ≤ regno ∧ regno ≤ 55 ∨ regno = 56)

def gdbRegValid (regno : Int) : Bool :=
  gdbRegIsCore regno || gdbRegIsX87 regno || gdbRegIsSse regno

def gdbRegSize (regno : Nat) : Nat :=
  if gdbRegIsCore regno then (if regno ≤ 16 then 8 else 4)
  else if gdbRegIsX87 regno then (if regno ≤ 31 then 10 else 4)
  else if 40 ≤ regno ∧ regno ≤ 55 then 16
  else if regno = 56 then 4
  else 0

/-! ## General registers -/

def getField : Nat → Option RegField
  | 0 => some .rax
  | 1 => some .rbx
  | 2 => some .rcx
  | 3 => some .rdx
  | 4 => some .rsi
  | 5 => some .rdi
  | 6 => some .rbp
  | 7 => some .rsp
  | 8 => some .r8
  | 9 => some .r9
  | 10 => some .r10
  | 11 => some .r11
  | 12 => some .r12
  | 13 => some .r13
  | 14 => some .r14
  | 15 => some .r15
  | 16 => some .rip
  | 17 => some .rflags
  | 18 => some .cs
  | 19 => some .ss
  | 20 => some .ds
  | 21 => some .es
  | 22 => some .fs
  | 23 => some .gs
  | _ => none

def gotValue (n : Nat) : RegField → Nat
  | .rflags | .cs | .ss => n % 2 ^ 32
  | _ => n

def gdbGetRegValue (regs : DebugRegs) (regno : Nat) : Nat :=
  match getField regno with
  | some f => gotValue (regs f).toNat f
  | none => 0

def setField : Nat → Option RegField
  | 0 => some .rax
  | 1 => some .rbx
  | 2 => some .rcx
  | 3 => some .rdx
  | 4 => some .rsi
  | 5 => some .rdi
  | 6 => some .rbp
  | 7 => some .rsp
  | 8 => some .r8
  | 9 => some .r9
  | 10 => some .r10
  | 11 => some .r11
  | 12 => some .r12
  | 13 => some .r13
  | 14 => some .r14
  | 15 => some .r15
  | 16 => some .rip
  | 17 => some .rflags
  | 18 => some .cs
  | 19 => some .ss
  | 20 => some .ds
  | 21 => some .es
  | 22 => some .fs
  | 23 => some .gs
  | _ => none

def setValue (old value : Nat) : RegField → Nat
  | .rflags => old / 2 ^ 32 * 2 ^ 32 + value % 2 ^ 32
  | .cs | .ss => value % 2 ^ 32
  | .ds | .es | .fs | .gs => value % 2 ^ 16
  | _ => value

def gdbSetRegValue (regs : DebugRegs) (regno value : Nat) : Option DebugRegs :=
  (setField regno).map fun f =>
    update regs f (BitVec.ofNat f.width (setValue (regs f).toNat value f))

/-! ## The block of the processor -/

def x87GetSpan (regno : Nat) : Nat × Nat :=
  if 24 ≤ regno ∧ regno ≤ 31 then (32 + (regno - 24) * 16, 10)
  else
    match regno with
    | 32 => (0, 2)
    | 33 => (2, 2)
    | 34 => (4, 1)
    | 36 => (8, 4)
    | 38 => (16, 4)
    | 39 => (6, 2)
    | _ => (0, 0)

def x87SetSpan (regno : Nat) : Nat × Nat :=
  if 24 ≤ regno ∧ regno ≤ 31 then (32 + (regno - 24) * 16, 10)
  else
    match regno with
    | 32 => (0, 2)
    | 33 => (2, 2)
    | 34 => (4, 1)
    | 36 => (8, 4)
    | 38 => (16, 4)
    | 39 => (6, 2)
    | _ => (0, 0)

def sseSpan (regno : Nat) : Nat × Nat :=
  if regno = 56 then (24, 4) else (160 + (regno - 40) * 16, 16)

def spanBytes (fpregs : DebugFpregs) (span : Nat × Nat) (size : Nat) : List UInt8 :=
  if fpregs.length < fxsaveMinLen then List.replicate size 0
  else slice fpregs.data span.1 span.2 ++ List.replicate (size - span.2) 0

def storeSpan (fpregs : DebugFpregs) (span : Nat × Nat) (data : List UInt8) : DebugFpregs :=
  let fpregs := ensureFxsave fpregs
  { fpregs with data := store fpregs.data span.1 (data.take span.2) }

def gdbGetX87Bytes (fpregs : DebugFpregs) (regno outSize : Nat) : Option (List UInt8) :=
  if ¬gdbRegIsX87 regno ∨ outSize < gdbRegSize regno then none
  else some (spanBytes fpregs (x87GetSpan regno) (gdbRegSize regno))

def gdbSetX87Bytes (fpregs : DebugFpregs) (regno : Nat) (data : List UInt8) :
    Option DebugFpregs :=
  if ¬gdbRegIsX87 regno ∨ data.length ≠ gdbRegSize regno then none
  else some (storeSpan fpregs (x87SetSpan regno) data)

def gdbGetSseBytes (fpregs : DebugFpregs) (regno outSize : Nat) : Option (List UInt8) :=
  if ¬gdbRegIsSse regno ∨ outSize < gdbRegSize regno then none
  else some (spanBytes fpregs (sseSpan regno) (gdbRegSize regno))

def gdbSetSseBytes (fpregs : DebugFpregs) (regno : Nat) (data : List UInt8) :
    Option DebugFpregs :=
  if ¬gdbRegIsSse regno ∨ data.length ≠ gdbRegSize regno then none
  else some (storeSpan fpregs (sseSpan regno) data)

/-! ## All registers -/

def gdbEncodeGCore (regs : DebugRegs) : List UInt8 :=
  (List.range 24).flatMap fun regno =>
    let value := gdbGetRegValue regs regno
    bytesToHex (leBytes (gdbRegSize regno)
      (if gdbRegSize regno = 4 then value % 2 ^ 32 else value))

def readOr (size : Nat) (bytes : Option (List UInt8)) : List UInt8 :=
  bytes.getD (List.replicate size 0)

def gdbEncodeGPacket (regs : DebugRegs) (fpregs : Option DebugFpregs) : List UInt8 :=
  gdbEncodeGCore regs ++
    ((List.range' 24 16).flatMap fun regno =>
      bytesToHex (readOr (gdbRegSize regno) (fpregs.bind fun f => gdbGetX87Bytes f regno 10))) ++
    ((List.range' 40 16).flatMap fun regno =>
      bytesToHex (readOr 16 (fpregs.bind fun f => gdbGetSseBytes f regno 16))) ++
    bytesToHex (readOr 4 (fpregs.bind fun f => gdbGetSseBytes f 56 4))

def decodeTurn {σ : Type*} (set : σ → Nat → List UInt8 → Option σ) (hex : List UInt8)
    (p : Nat × σ) (regno : Nat) : Option (Nat × σ) :=
  let size := gdbRegSize regno
  if p.1 + size * 2 > hex.length then none
  else
    match hexToBytes ((hex.drop p.1).take (size * 2)) with
    | none => none
    | some data => (set p.2 regno data).map fun s => (p.1 + size * 2, s)

def decodeLoop {σ : Type*} (set : σ → Nat → List UInt8 → Option σ) (hex : List UInt8)
    (regnos : List Nat) (offset : Nat) (s : σ) : Option (Nat × σ) :=
  regnos.foldlM (decodeTurn set hex) (offset, s)

def gdbDecodeGCore (hex : List UInt8) (regs : DebugRegs) : Option DebugRegs :=
  (decodeLoop (fun regs regno data => gdbSetRegValue regs regno (leNat data)) hex
    (List.range 24) 0 regs).map Prod.snd

def gdbCorePacketHexSize : Nat := 328

def gdbPacketHexSize : Nat := 1072

def gdbDecodeGPacket (hex : List UInt8) (regs : DebugRegs) (fpregs : Option DebugFpregs) :
    Option (DebugRegs × Option DebugFpregs) := do
  guard (hex.length = gdbPacketHexSize)
  let regs ← gdbDecodeGCore hex regs
  match fpregs with
  | none =>
    let _ ← hexToBytes (hex.drop gdbCorePacketHexSize)
    return (regs, none)
  | some fpregs =>
    let (offset, fpregs) ← decodeLoop gdbSetX87Bytes hex (List.range' 24 16)
      gdbCorePacketHexSize (ensureFxsave fpregs)
    let (offset, fpregs) ← decodeLoop gdbSetSseBytes hex (List.range' 40 16) offset fpregs
    let (_, fpregs) ← decodeLoop gdbSetSseBytes hex [56] offset fpregs
    return (regs, some fpregs)

/-! ## Packets -/

structure Target where
  attached : Bool
  regs : DebugRegs
  fpregs : DebugFpregs
  fpregsSupported : Bool
  canGetRegs : Bool
  canSetRegs : Bool
  canGetFpregs : Bool
  canSetFpregs : Bool

def regCast (regno : Nat) : Int := int32 (regno % 2 ^ 32)

def parseHexText (s : List UInt8) : Option Nat :=
  let text := s.takeWhile (· != 0)
  parseHexU64 text 0 text.length

def handleReadAllRegisters (t : Target) : List UInt8 :=
  if !t.attached || !t.canGetRegs then errPacket 1
  else if t.fpregsSupported then
    if !t.canGetFpregs then errPacket 1
    else gdbEncodeGPacket t.regs (some t.fpregs)
  else gdbEncodeGPacket t.regs none

def handleReadRegister (t : Target) (packet : List UInt8) : List UInt8 :=
  if !t.attached then errPacket 1
  else
    match parseHexText (packet.drop 1) with
    | none => errPacket 1
    | some regno =>
      if !gdbRegValid (regCast regno) then errPacket 1
      else
        let ir := (regCast regno).toNat
        let size := gdbRegSize ir
        if gdbRegIsSse ir || gdbRegIsX87 ir then
          if !t.fpregsSupported then List.replicate (size * 2) 48
          else if !t.canGetFpregs then errPacket 1
          else
            match if gdbRegIsSse ir then gdbGetSseBytes t.fpregs ir 16
              else gdbGetX87Bytes t.fpregs ir 16 with
            | some buf => bytesToHex buf
            | none => errPacket 1
        else if !t.canGetRegs then errPacket 1
        else
          let value := gdbGetRegValue t.regs ir
          bytesToHex (leBytes size (if size = 4 then value % 2 ^ 32 else value))

def handleWriteRegister (t : Target) (packet : List UInt8) : List UInt8 × Target :=
  if !t.attached then (errPacket 1, t)
  else
    match findChar packet 61 0 with
    | none => (errPacket 1, t)
    | some eq =>
      match parseHexU64 packet 1 eq with
      | none => (errPacket 1, t)
      | some regno =>
        if !gdbRegValid (regCast regno) then (errPacket 1, t)
        else
          let ir := (regCast regno).toNat
          let size := gdbRegSize ir
          let text := packet.drop (eq + 1)
          match if text.length = size * 2 then hexToBytes text else none with
          | none => (errPacket 1, t)
          | some data =>
            if gdbRegIsSse ir || gdbRegIsX87 ir then
              if !t.fpregsSupported then (okPacket, t)
              else if !t.canGetFpregs then (errPacket 1, t)
              else
                match if gdbRegIsSse ir then gdbSetSseBytes t.fpregs ir data
                  else gdbSetX87Bytes t.fpregs ir data with
                | none => (errPacket 1, t)
                | some fpregs =>
                  if !t.canSetFpregs then (errPacket 1, t)
                  else (okPacket, { t with fpregs := fpregs })
            else if !t.canGetRegs then (errPacket 1, t)
            else
              match gdbSetRegValue t.regs ir (leNat data) with
              | none => (errPacket 1, t)
              | some regs =>
                if !t.canSetRegs then (errPacket 1, t) else (okPacket, { t with regs := regs })

/-! ## One register -/

def fpSpan (regno : Nat) : Nat × Nat := if regno ≤ 39 then x87GetSpan regno else sseSpan regno

def regBytes (regs : DebugRegs) (fpregs : Option DebugFpregs) (regno : Nat) : List UInt8 :=
  if regno < 24 then leBytes (gdbRegSize regno) (gdbGetRegValue regs regno)
  else
    match fpregs with
    | none => List.replicate (gdbRegSize regno) 0
    | some f => spanBytes f (fpSpan regno) (gdbRegSize regno)

def RegField.limit : RegField → Nat
  | .rflags | .cs | .ss | .trapno | .err => 2 ^ 32
  | .ds | .es | .fs | .gs => 2 ^ 16
  | _ => 2 ^ 64

theorem gotValue_lt (f : RegField) (x : BitVec f.width) : gotValue x.toNat f < f.limit := by
  have hx := x.isLt
  cases f <;> first
    | exact hx
    | exact Nat.mod_lt _ (by decide)

theorem gotValue_setValue (f : RegField) (old v : Nat) :
    gotValue (BitVec.ofNat f.width (setValue old v f)).toNat f = v % f.limit := by
  rw [BitVec.toNat_ofNat]
  cases f <;> dsimp only [gotValue, setValue, RegField.limit, RegField.width] <;> omega

theorem field_spec {n : Nat} (h : n < 24) :
    ∃ f, getField n = some f ∧ setField n = some f ∧ f.limit ≤ 256 ^ gdbRegSize n := by
  have htable : ∀ n < 24, (getField n).isSome ∧ getField n = setField n ∧
      (getField n).all (fun f => f.limit ≤ 256 ^ gdbRegSize n) = true := by decide
  obtain ⟨hsome, hsame, hall⟩ := htable n h
  obtain ⟨f, hf⟩ := Option.isSome_iff_exists.mp hsome
  rw [hf] at hsame hall
  exact ⟨f, hf, hsame.symm, of_decide_eq_true hall⟩

theorem getField_inj {n m : Nat} (hn : n < 24) (hm : m < 24) (h : getField m = getField n) :
    m = n := by
  have htable : ∀ n < 24, ∀ m < 24, getField m = getField n → m = n := by decide
  exact htable n hn m hm h

theorem gdbGetRegValue_lt (regs : DebugRegs) {n : Nat} (h : n < 24) :
    gdbGetRegValue regs n < 256 ^ gdbRegSize n := by
  obtain ⟨f, hf, -, hlimit⟩ := field_spec h
  rw [gdbGetRegValue, hf]
  exact Nat.lt_of_lt_of_le (gotValue_lt f (regs f)) hlimit

theorem gdbSetRegValue_get (src dst : DebugRegs) {n : Nat} (h : n < 24) :
    ∃ regs, gdbSetRegValue dst n (gdbGetRegValue src n) = some regs ∧
      gdbGetRegValue regs n = gdbGetRegValue src n := by
  obtain ⟨f, hget, hset, -⟩ := field_spec h
  refine ⟨_, by rw [gdbSetRegValue, hset, Option.map_some], ?_⟩
  simp only [gdbGetRegValue, hget, update_self, gotValue_setValue]
  exact Nat.mod_eq_of_lt (gotValue_lt f (src f))

theorem gdbGetRegValue_set_of_ne {dst regs : DebugRegs} {n m v : Nat} (hn : n < 24) (hm : m < 24)
    (hne : m ≠ n) (h : gdbSetRegValue dst n v = some regs) :
    gdbGetRegValue regs m = gdbGetRegValue dst m := by
  obtain ⟨f, hget, hset, -⟩ := field_spec hn
  obtain ⟨f', hget', -, -⟩ := field_spec hm
  rw [gdbSetRegValue, hset, Option.map_some] at h
  obtain rfl := Option.some.inj h
  have hfields : f' ≠ f := by
    rintro rfl
    exact hne (getField_inj hn hm (hget'.trans hget.symm))
  simp only [gdbGetRegValue, hget', update_of_ne hfields]

/-! ## One span -/

theorem ensureFxsave_of_le {f : DebugFpregs} (h : fxsaveMinLen ≤ f.length) : ensureFxsave f = f :=
  if_neg (Nat.not_lt.mpr h)

def InSpan (span : Nat × Nat) (k : Nat) : Prop := span.1 ≤ k ∧ k < span.1 + span.2

instance (span : Nat × Nat) (k : Nat) : Decidable (InSpan span k) :=
  inferInstanceAs (Decidable (_ ∧ _))

theorem storeSpan_spanBytes {src dst : DebugFpregs} (hsrc : fxsaveMinLen ≤ src.length)
    (hdst : fxsaveMinLen ≤ dst.length) (span : Nat × Nat) (size : Nat) :
    (storeSpan dst span (spanBytes src span size)).length = dst.length ∧
      ∀ k, (storeSpan dst span (spanBytes src span size)).data k =
        if InSpan span k then src.data k else dst.data k := by
  unfold storeSpan spanBytes
  rw [ensureFxsave_of_le hdst, if_neg (Nat.not_lt.mpr hsrc),
    take_left' (by rw [length_slice])]
  refine ⟨rfl, fun k => ?_⟩
  dsimp only [store]
  rw [length_slice]
  by_cases hin : InSpan span k
  · obtain ⟨hle, hlt⟩ := id hin
    have hi : k - span.1 < span.2 := by omega
    rw [if_pos hin, if_pos ⟨hle, hlt⟩, getD_slice src.data hi, Nat.add_sub_of_le hle]
  · rw [if_neg hin]
    exact if_neg hin

theorem spanBytes_storeSpan {f : DebugFpregs} (hf : fxsaveMinLen ≤ f.length)
    {span span' : Nat × Nat} (hapart : ∀ k, InSpan span k → ¬InSpan span' k)
    (data : List UInt8) (size : Nat) :
    spanBytes (storeSpan f span' data) span size = spanBytes f span size := by
  unfold storeSpan spanBytes
  rw [ensureFxsave_of_le hf, if_neg (Nat.not_lt.mpr hf)]
  rw [if_neg (Nat.not_lt.mpr hf)]
  congr 1
  refine slice_congr _ fun k hle hlt => ?_
  have hnot := hapart k ⟨hle, hlt⟩
  unfold InSpan at hnot
  have htake := length_take_le span'.2 data
  exact if_neg fun hin => hnot ⟨hin.1, by omega⟩

theorem fpSpan_apart {n m : Nat} (hn : 24 ≤ n ∧ n ≤ 56) (hm : 24 ≤ m ∧ m ≤ 56) (hne : m ≠ n)
    {k : Nat} (hk : InSpan (fpSpan m) k) : ¬InSpan (fpSpan n) k := by
  have htable : ∀ n < 33, ∀ m < 33, m ≠ n →
      (fpSpan (24 + m)).1 + (fpSpan (24 + m)).2 ≤ (fpSpan (24 + n)).1 ∨
        (fpSpan (24 + n)).1 + (fpSpan (24 + n)).2 ≤ (fpSpan (24 + m)).1 ∨
          (fpSpan (24 + m)).2 = 0 ∨ (fpSpan (24 + n)).2 = 0 := by decide
  have happart := htable (n - 24) (by omega) (m - 24) (by omega) (by omega)
  rw [Nat.add_sub_of_le hn.1, Nat.add_sub_of_le hm.1] at happart
  unfold InSpan at hk ⊢
  omega

/-! ## Texts -/

theorem hexToBytes_bytesToHex (data : List UInt8) : hexToBytes (bytesToHex data) = some data := by
  induction data with
  | nil => rfl
  | cons b data ih =>
    have hlt := b.toNat_lt
    have hbyte : b.toNat / 16 * 16 + b.toNat % 16 = b.toNat := by omega
    rw [bytesToHex, flatMap_cons, cons_append, cons_append, nil_append,
      hexToBytes, hexNibble_hexDigit (by omega), hexNibble_hexDigit (by omega)]
    dsimp only
    rw [show data.flatMap (fun b => [hexDigit (b.toNat / 16), hexDigit (b.toNat % 16)]) =
      bytesToHex data from rfl, ih, hbyte, UInt8.ofNat_toNat]
    rfl

theorem length_bytesToHex (data : List UInt8) : (bytesToHex data).length = data.length * 2 := by
  induction data with
  | nil => rfl
  | cons b data ih =>
    rw [bytesToHex, flatMap_cons, length_append, ← bytesToHex, ih]
    simp only [length_cons, length_nil]
    omega

theorem length_spanBytes (f : DebugFpregs) {span : Nat × Nat} {size : Nat} (h : span.2 ≤ size) :
    (spanBytes f span size).length = size := by
  unfold spanBytes
  split_ifs
  · exact length_replicate
  · rw [length_append, length_slice, length_replicate, Nat.add_sub_of_le h]

theorem fpSpan_le {n : Nat} (h : 24 ≤ n ∧ n ≤ 56) : (fpSpan n).2 ≤ gdbRegSize n := by
  have htable : ∀ n < 57, 24 ≤ n → (fpSpan n).2 ≤ gdbRegSize n := by decide
  exact htable n (by omega) h.1

theorem length_regBytes (regs : DebugRegs) (fpregs : Option DebugFpregs) {n : Nat} (h : n ≤ 56) :
    (regBytes regs fpregs n).length = gdbRegSize n := by
  unfold regBytes
  split_ifs with hcore
  · exact length_leBytes _ _
  · cases fpregs with
    | none => exact length_replicate
    | some f => exact length_spanBytes f (fpSpan_le ⟨Nat.not_lt.mp hcore, h⟩)

section

variable (regs : DebugRegs) (fpregs : Option DebugFpregs)

def regHex (n : Nat) : List UInt8 := bytesToHex (regBytes regs fpregs n)

theorem coreBytes_eq {n : Nat} (h : n < 24) :
    leBytes (gdbRegSize n)
        (if gdbRegSize n = 4 then gdbGetRegValue regs n % 2 ^ 32 else gdbGetRegValue regs n) =
      regBytes regs fpregs n := by
  have hvalue := gdbGetRegValue_lt regs h
  unfold regBytes
  rw [if_pos h]
  split_ifs with hsize
  · rw [hsize] at hvalue ⊢
    rw [Nat.mod_eq_of_lt (show gdbGetRegValue regs n < 2 ^ 32 from hvalue)]
  · rfl

theorem gdbEncodeGCore_eq :
    gdbEncodeGCore regs = (List.range 24).flatMap (regHex regs fpregs) := by
  refine flatMap_congr fun n hn => ?_
  unfold regHex
  rw [← coreBytes_eq regs fpregs (mem_range.mp hn)]

theorem regBytes_x87 {n : Nat} (h : 24 ≤ n ∧ n ≤ 39) (outSize : Nat) (hsize : 10 ≤ outSize) :
    readOr (gdbRegSize n) (fpregs.bind fun f => gdbGetX87Bytes f n outSize) =
      regBytes regs fpregs n := by
  have htable : ∀ n : Nat, n < 40 → 24 ≤ n → gdbRegIsX87 n = true ∧ gdbRegSize n ≤ 10 := by decide
  obtain ⟨hx87, hle⟩ := htable n (by omega) h.1
  unfold regBytes readOr
  rw [if_neg (by omega)]
  cases fpregs with
  | none => rfl
  | some f =>
    rw [Option.bind_some, gdbGetX87Bytes, if_neg, fpSpan, if_pos h.2]
    · rfl
    · rw [hx87]
      rintro (hnot | hlt)
      · exact hnot rfl
      · omega

theorem regBytes_sse {n : Nat} (h : 40 ≤ n ∧ n ≤ 56) (outSize : Nat)
    (hsize : gdbRegSize n ≤ outSize) :
    readOr (gdbRegSize n) (fpregs.bind fun f => gdbGetSseBytes f n outSize) =
      regBytes regs fpregs n := by
  have htable : ∀ n : Nat, n < 57 → 40 ≤ n → gdbRegIsSse n = true := by decide
  have hsse := htable n (by omega) h.1
  unfold regBytes readOr
  rw [if_neg (by omega)]
  cases fpregs with
  | none => rfl
  | some f =>
    rw [Option.bind_some, gdbGetSseBytes, if_neg, fpSpan, if_neg (by omega)]
    · rfl
    · rw [hsse]
      rintro (hnot | hlt)
      · exact hnot rfl
      · omega

theorem gdbRegSize_xmm {n : Nat} (h : 40 ≤ n ∧ n ≤ 55) : gdbRegSize n = 16 := by
  have htable : ∀ n < 56, 40 ≤ n → gdbRegSize n = 16 := by decide
  exact htable n (by omega) h.1

theorem gdbEncodeGPacket_eq :
    gdbEncodeGPacket regs fpregs = (List.range 57).flatMap (regHex regs fpregs) := by
  have hrange : List.range 57 =
      List.range 24 ++ List.range' 24 16 ++ List.range' 40 16 ++ [56] := by
    decide
  have hx87 : ((List.range' 24 16).flatMap fun n => bytesToHex (readOr (gdbRegSize n)
      (fpregs.bind fun f => gdbGetX87Bytes f n 10))) =
      (List.range' 24 16).flatMap (regHex regs fpregs) := by
    refine flatMap_congr fun n hn => ?_
    have hin := mem_range'_1.mp hn
    rw [regHex, regBytes_x87 regs fpregs (by omega) 10 (Nat.le_refl _)]
  have hxmm : ((List.range' 40 16).flatMap fun n => bytesToHex (readOr 16
      (fpregs.bind fun f => gdbGetSseBytes f n 16))) =
      (List.range' 40 16).flatMap (regHex regs fpregs) := by
    refine flatMap_congr fun n hn => ?_
    have hin := mem_range'_1.mp hn
    have hsize := @gdbRegSize_xmm n (by omega)
    have hbytes := regBytes_sse regs fpregs (n := n) (by omega) 16 (by omega)
    rw [hsize] at hbytes
    rw [regHex, hbytes]
  have hmxcsr : bytesToHex (readOr 4 (fpregs.bind fun f => gdbGetSseBytes f 56 4)) =
      regHex regs fpregs 56 := by
    rw [regHex, ← regBytes_sse regs fpregs (by decide) 4 (by decide)]
    rfl
  rw [gdbEncodeGPacket, gdbEncodeGCore_eq regs fpregs, hx87, hxmm, hmxcsr, hrange,
    flatMap_append, flatMap_append, flatMap_append, flatMap_singleton]

def regOffset (n : Nat) : Nat := ((List.range n).map fun m => gdbRegSize m * 2).sum

def regSlice (g : List UInt8) (n : Nat) : List UInt8 :=
  (g.drop (regOffset n)).take (gdbRegSize n * 2)

theorem length_regHex {n : Nat} (h : n ≤ 56) :
    (regHex regs fpregs n).length = gdbRegSize n * 2 := by
  rw [regHex, length_bytesToHex, length_regBytes regs fpregs h]

theorem length_flatMap_regHex {ns : List Nat} (h : ∀ n ∈ ns, n ≤ 56) :
    (ns.flatMap (regHex regs fpregs)).length = (ns.map fun m => gdbRegSize m * 2).sum := by
  rw [length_flatMap]
  exact congrArg List.sum (map_congr_left fun n hn => length_regHex regs fpregs (h n hn))

theorem regSlice_gdbEncodeGPacket {n : Nat} (h : n ≤ 56) :
    regSlice (gdbEncodeGPacket regs fpregs) n = regHex regs fpregs n := by
  have hrange : List.range 57 = List.range n ++ n :: List.range' (n + 1) (56 - n) := by
    rw [range_eq_range', range_eq_range', ← range'_succ, ← Nat.sub_add_comm h]
    have happend := range'_append_1 (s := 0) (m := n) (n := 56 + 1 - n)
    rw [Nat.zero_add] at happend
    rw [happend]
    congr 1
    omega
  have hlen : ((List.range n).flatMap (regHex regs fpregs)).length = regOffset n :=
    length_flatMap_regHex regs fpregs fun m hm => by
      have hlt := mem_range.mp hm
      omega
  rw [regSlice, gdbEncodeGPacket_eq, hrange, flatMap_append, flatMap_cons,
    drop_left' hlen, take_left' (length_regHex regs fpregs h)]

end

/-! ## Round trip -/

theorem decodeTurn_eq {σ : Type*} {set : σ → Nat → List UInt8 → Option σ} {data : List UInt8}
    {n : Nat} (hsize : data.length = gdbRegSize n) (front behind : List UInt8) (s : σ) :
    decodeTurn set (front ++ (bytesToHex data ++ behind)) (front.length, s) n =
      (set s n data).map fun s => ((front ++ bytesToHex data).length, s) := by
  have hlen : (bytesToHex data).length = gdbRegSize n * 2 := by rw [length_bytesToHex, hsize]
  unfold decodeTurn
  rw [if_neg (by rw [length_append, length_append, hlen]; omega), drop_left,
    take_left' hlen, hexToBytes_bytesToHex, length_append, hlen]

theorem decodeLoop_eq {σ : Type*} {set : σ → Nat → List UInt8 → Option σ}
    {bytes : Nat → List UInt8} {ns : List Nat} (hsize : ∀ n ∈ ns, (bytes n).length = gdbRegSize n)
    (front behind : List UInt8) (s : σ) :
    decodeLoop set (front ++ ((ns.flatMap fun n => bytesToHex (bytes n)) ++ behind)) ns
        front.length s =
      (ns.foldlM (fun s n => set s n (bytes n)) s).map fun s =>
        ((front ++ ns.flatMap fun n => bytesToHex (bytes n)).length, s) := by
  unfold decodeLoop
  induction ns generalizing front s with
  | nil =>
    rw [foldlM_nil, foldlM_nil, flatMap_nil, append_nil]
    rfl
  | cons n ns ih =>
    rw [foldlM_cons, foldlM_cons, flatMap_cons, append_assoc,
      decodeTurn_eq (hsize n mem_cons_self)]
    cases hset : set s n (bytes n) with
    | none => rfl
    | some s' =>
      have hrest := ih (fun m hm => hsize m (mem_cons_of_mem _ hm))
        (front ++ bytesToHex (bytes n)) s'
      rw [append_assoc, append_assoc] at hrest
      exact hrest

theorem foldlM_gdbSetRegValue (src : DebugRegs) (fpregs : Option DebugFpregs) {ns : List Nat}
    (hns : ∀ n ∈ ns, n < 24) (dst : DebugRegs) :
    ∃ regs, ns.foldlM (fun d n => gdbSetRegValue d n (leNat (regBytes src fpregs n))) dst =
        some regs ∧
      ∀ m < 24, gdbGetRegValue regs m =
        if m ∈ ns then gdbGetRegValue src m else gdbGetRegValue dst m := by
  induction ns generalizing dst with
  | nil => exact ⟨dst, rfl, fun m _ => rfl⟩
  | cons n ns ih =>
    have hn := hns n mem_cons_self
    have hvalue : leNat (regBytes src fpregs n) = gdbGetRegValue src n := by
      unfold regBytes
      rw [if_pos hn, leNat_leBytes, Nat.mod_eq_of_lt (gdbGetRegValue_lt src hn)]
    obtain ⟨dst', hset, hget⟩ := gdbSetRegValue_get src dst hn
    obtain ⟨regs, hfold, hall⟩ := ih (fun m hm => hns m (mem_cons_of_mem _ hm)) dst'
    refine ⟨regs, ?_, fun m hm => ?_⟩
    · rw [foldlM_cons, hvalue, hset, Option.bind_eq_bind, Option.bind_some, hfold]
    · rw [hall m hm]
      by_cases hmem : m ∈ ns
      · rw [if_pos hmem, if_pos (mem_cons_of_mem _ hmem)]
      · rw [if_neg hmem]
        by_cases heq : m = n
        · rw [heq, hget, if_pos mem_cons_self]
        · rw [gdbGetRegValue_set_of_ne hn hm heq hset,
            if_neg fun h => (mem_cons.mp h).elim heq hmem]

def Represented (ns : List Nat) (k : Nat) : Prop := ∃ n ∈ ns, InSpan (fpSpan n) k

instance (ns : List Nat) (k : Nat) : Decidable (Represented ns k) :=
  inferInstanceAs (Decidable (∃ n ∈ ns, _))

theorem foldlM_storeSpan {src : DebugFpregs} (hsrc : fxsaveMinLen ≤ src.length)
    {set : DebugFpregs → Nat → List UInt8 → Option DebugFpregs} {ns : List Nat}
    (hset : ∀ n ∈ ns, ∀ d, set d n (spanBytes src (fpSpan n) (gdbRegSize n)) =
      some (storeSpan d (fpSpan n) (spanBytes src (fpSpan n) (gdbRegSize n))))
    {dst : DebugFpregs} (hdst : fxsaveMinLen ≤ dst.length) :
    ∃ f, ns.foldlM (fun d n => set d n (spanBytes src (fpSpan n) (gdbRegSize n))) dst = some f ∧
      f.length = dst.length ∧
      ∀ k, f.data k = if Represented ns k then src.data k else dst.data k := by
  induction ns generalizing dst with
  | nil => exact ⟨dst, rfl, rfl, fun k => (if_neg (by rintro ⟨n, hn, -⟩; cases hn)).symm⟩
  | cons n ns ih =>
    obtain ⟨hlen, hdata⟩ := storeSpan_spanBytes hsrc hdst (fpSpan n) (gdbRegSize n)
    obtain ⟨f, hfold, hflen, hall⟩ := ih (fun m hm => hset m (mem_cons_of_mem _ hm))
      (hlen.symm ▸ hdst)
    refine ⟨f, ?_, hflen.trans hlen, fun k => ?_⟩
    · rw [foldlM_cons, hset n mem_cons_self, Option.bind_eq_bind, Option.bind_some,
        hfold]
    rw [hall k, hdata k]
    by_cases hrest : Represented ns k
    · obtain ⟨m, hm, hin⟩ := id hrest
      rw [if_pos hrest, if_pos ⟨m, mem_cons_of_mem _ hm, hin⟩]
    · rw [if_neg hrest]
      by_cases hin : InSpan (fpSpan n) k
      · rw [if_pos hin, if_pos ⟨n, mem_cons_self, hin⟩]
      · rw [if_neg hin, if_neg]
        rintro ⟨m, hm, hm'⟩
        obtain rfl | hm := mem_cons.mp hm
        · exact hin hm'
        · exact hrest ⟨m, hm, hm'⟩

theorem gdbSetX87Bytes_span {n : Nat} (h : 24 ≤ n ∧ n ≤ 39) (d : DebugFpregs)
    {data : List UInt8} (hdata : data.length = gdbRegSize n) :
    gdbSetX87Bytes d n data = some (storeSpan d (fpSpan n) data) := by
  have htable : ∀ n : Nat, n < 40 → 24 ≤ n → gdbRegIsX87 n = true := by decide
  rw [gdbSetX87Bytes, fpSpan, if_pos h.2, if_neg]
  · rfl
  · rintro (hnot | hne)
    · exact hnot (htable n (by omega) h.1)
    · exact hne hdata

theorem gdbSetSseBytes_span {n : Nat} (h : 40 ≤ n ∧ n ≤ 56) (d : DebugFpregs)
    {data : List UInt8} (hdata : data.length = gdbRegSize n) :
    gdbSetSseBytes d n data = some (storeSpan d (fpSpan n) data) := by
  have htable : ∀ n : Nat, n < 57 → 40 ≤ n → gdbRegIsSse n = true := by decide
  have hguard : ¬(¬gdbRegIsSse n = true ∨ data.length ≠ gdbRegSize n) := by
    rintro (hnot | hne)
    · exact hnot (htable n (by omega) h.1)
    · exact hne hdata
  have hlt : ¬n ≤ 39 := by omega
  rw [gdbSetSseBytes, fpSpan, if_neg hguard, if_neg hlt]

/-- The bytes of the block that belong to a register. -/
abbrev RepresentedByte (k : Nat) : Prop := Represented (List.range' 24 33) k

theorem representedByte_iff {k : Nat} : RepresentedByte k ↔
    Represented (List.range' 24 16) k ∨ Represented (List.range' 40 16) k ∨
      Represented [56] k := by
  have hall : List.range' 24 33 = List.range' 24 16 ++ (List.range' 40 16 ++ [56]) := by decide
  unfold RepresentedByte Represented
  rw [hall]
  simp only [mem_append, or_and_right, exists_or]

theorem gdbDecodeGPacket_parts {regs dst r : DebugRegs} {fp fdst f₁ f₂ f₃ : DebugFpregs}
    {bytes : Nat → List UInt8} (hsize : ∀ n, 24 ≤ n ∧ n ≤ 56 → (bytes n).length = gdbRegSize n)
    (hfdst : fxsaveMinLen ≤ fdst.length)
    (hcore : (List.range 24).foldlM
      (fun d n => gdbSetRegValue d n (leNat (regBytes regs (some fp) n))) dst = some r)
    (hx87 : (List.range' 24 16).foldlM (fun d n => gdbSetX87Bytes d n (bytes n)) fdst = some f₁)
    (hxmm : (List.range' 40 16).foldlM (fun d n => gdbSetSseBytes d n (bytes n)) f₁ = some f₂)
    (hmxcsr : [56].foldlM (fun d n => gdbSetSseBytes d n (bytes n)) f₂ = some f₃) :
    gdbDecodeGPacket ((List.range 24).flatMap (regHex regs (some fp)) ++
      (((List.range' 24 16).flatMap fun n => bytesToHex (bytes n)) ++
        (((List.range' 40 16).flatMap fun n => bytesToHex (bytes n)) ++
          [56].flatMap fun n => bytesToHex (bytes n)))) dst (some fdst) = some (r, some f₃) := by
  have hinX : ∀ n ∈ List.range' 24 16, 24 ≤ n ∧ n ≤ 56 := by decide
  have hinS : ∀ n ∈ List.range' 40 16, 24 ≤ n ∧ n ≤ 56 := by decide
  have hinM : ∀ n ∈ [56], 24 ≤ n ∧ n ≤ 56 := by decide
  have hlen : ∀ ns : List Nat, (∀ n ∈ ns, 24 ≤ n ∧ n ≤ 56) →
      (ns.flatMap fun n => bytesToHex (bytes n)).length =
        (ns.map fun n => gdbRegSize n * 2).sum := by
    intro ns hns
    rw [length_flatMap]
    refine congrArg List.sum (map_congr_left fun n hn => ?_)
    rw [length_bytesToHex, hsize n (hns n hn)]
  have hlenA : ((List.range 24).flatMap (regHex regs (some fp))).length =
      gdbCorePacketHexSize := by
    rw [length_flatMap_regHex regs (some fp) fun n hn => by
      have hlt := mem_range.mp hn
      omega]
    decide
  have hlenB := hlen _ hinX
  have hlenC := hlen _ hinS
  have hlenD := hlen _ hinM
  have hdecodeA := fun behind => @decodeLoop_eq DebugRegs
    (fun d n data => gdbSetRegValue d n (leNat data)) _ (List.range 24)
    (fun n hn => length_regBytes regs (some fp) (by
      have hlt := mem_range.mp hn
      omega)) [] behind dst
  have hdecodeB := fun front behind => @decodeLoop_eq _ gdbSetX87Bytes _ _
    (fun n hn => hsize n (hinX n hn)) front behind fdst
  have hdecodeC := fun front behind => @decodeLoop_eq _ gdbSetSseBytes _ _
    (fun n hn => hsize n (hinS n hn)) front behind f₁
  have hdecodeD := fun front behind => @decodeLoop_eq _ gdbSetSseBytes _ _
    (fun n hn => hsize n (hinM n hn)) front behind f₂
  rw [hx87] at hdecodeB
  rw [hxmm] at hdecodeC
  rw [hmxcsr] at hdecodeD
  rw [hcore] at hdecodeA
  change ∀ behind, decodeLoop _ ([] ++ ((List.range 24).flatMap (regHex regs (some fp)) ++ behind))
    _ 0 dst = _ at hdecodeA
  generalize (List.range 24).flatMap (regHex regs (some fp)) = A at *
  generalize ((List.range' 24 16).flatMap fun n => bytesToHex (bytes n)) = B at *
  generalize ((List.range' 40 16).flatMap fun n => bytesToHex (bytes n)) = C at *
  generalize ([56].flatMap fun n => bytesToHex (bytes n)) = D at *
  have htotal : (A ++ (B ++ (C ++ D))).length = gdbPacketHexSize := by
    rw [length_append, length_append, length_append, hlenA, hlenB, hlenC, hlenD]
    decide
  have hgotA : gdbDecodeGCore (A ++ (B ++ (C ++ D))) dst = some r := by
    have h := hdecodeA (B ++ (C ++ D))
    rw [nil_append] at h
    rw [gdbDecodeGCore, h]
    rfl
  have hgotB := hdecodeB A (C ++ D)
  have hgotC := hdecodeC (A ++ B) D
  have hgotD := hdecodeD (A ++ B ++ C) []
  rw [append_assoc] at hgotC
  rw [append_nil, append_assoc, append_assoc] at hgotD
  unfold gdbDecodeGPacket
  rw [htotal]
  dsimp only
  rw [hgotA, ensureFxsave_of_le hfdst, ← hlenA, hgotB]
  simp only [guard, if_true, Option.pure_def, Option.bind_eq_bind, Option.bind_some,
    Option.map_some, hgotC, hgotD]

theorem gdbDecodeGPacket_encode (regs dst : DebugRegs) {fp fdst : DebugFpregs}
    (hfp : fxsaveMinLen ≤ fp.length) (hfdst : fxsaveMinLen ≤ fdst.length) :
    ∃ r f, gdbDecodeGPacket (gdbEncodeGPacket regs (some fp)) dst (some fdst) =
        some (r, some f) ∧
      (∀ n < 24, gdbGetRegValue r n = gdbGetRegValue regs n) ∧ f.length = fdst.length ∧
      ∀ k, f.data k = if RepresentedByte k then fp.data k else fdst.data k := by
  have hsize : ∀ n, 24 ≤ n ∧ n ≤ 56 →
      (spanBytes fp (fpSpan n) (gdbRegSize n)).length = gdbRegSize n :=
    fun n hn => length_spanBytes fp (fpSpan_le hn)
  have htext : ∀ ns : List Nat, (∀ n ∈ ns, 24 ≤ n) → ns.flatMap (regHex regs (some fp)) =
      ns.flatMap fun n => bytesToHex (spanBytes fp (fpSpan n) (gdbRegSize n)) := by
    refine fun ns hns => flatMap_congr fun n hn => ?_
    unfold regHex regBytes
    rw [if_neg (Nat.not_lt.mpr (hns n hn))]
  have hrange : List.range 57 =
      List.range 24 ++ (List.range' 24 16 ++ (List.range' 40 16 ++ [56])) := by decide
  obtain ⟨r, hcore, hr⟩ := foldlM_gdbSetRegValue regs (some fp)
    (fun n hn => mem_range.mp hn) dst
  obtain ⟨f₁, hx87, hlen₁, hdata₁⟩ := @foldlM_storeSpan fp hfp gdbSetX87Bytes (List.range' 24 16)
    (fun n hn d => by
      have hin := mem_range'_1.mp hn
      exact gdbSetX87Bytes_span (by omega) d (hsize n (by omega))) fdst hfdst
  obtain ⟨f₂, hxmm, hlen₂, hdata₂⟩ := @foldlM_storeSpan fp hfp gdbSetSseBytes (List.range' 40 16)
    (fun n hn d => by
      have hin := mem_range'_1.mp hn
      exact gdbSetSseBytes_span (by omega) d (hsize n (by omega))) f₁ (by omega)
  obtain ⟨f₃, hmxcsr, hlen₃, hdata₃⟩ := @foldlM_storeSpan fp hfp gdbSetSseBytes [56]
    (fun n hn d => by
      obtain rfl := mem_singleton.mp hn
      exact gdbSetSseBytes_span (by decide) d (hsize 56 (by decide))) f₂ (by omega)
  refine ⟨r, f₃, ?_, fun n hn => ?_, by omega, fun k => ?_⟩
  · rw [gdbEncodeGPacket_eq, hrange, flatMap_append, flatMap_append,
      flatMap_append, htext (List.range' 24 16) (by decide),
      htext (List.range' 40 16) (by decide), htext [56] (by decide)]
    exact gdbDecodeGPacket_parts hsize hfdst hcore hx87 hxmm hmxcsr
  · rw [hr n hn, if_pos (mem_range.mpr hn)]
  · rw [hdata₃ k, hdata₂ k, hdata₁ k]
    by_cases hall : RepresentedByte k
    · rw [if_pos hall]
      rcases representedByte_iff.mp hall with h | h | h
      · rw [if_pos h, ite_self, ite_self]
      · rw [if_pos h, ite_self]
      · rw [if_pos h]
    · rw [if_neg hall]
      rw [if_neg fun h => hall (representedByte_iff.mpr (.inr (.inr h))),
        if_neg fun h => hall (representedByte_iff.mpr (.inr (.inl h))),
        if_neg fun h => hall (representedByte_iff.mpr (.inl h))]

/-! ## The packets of one register -/

/-- The registers can be read, all of them. -/
structure Target.Readable (t : Target) : Prop where
  attached : t.attached = true
  regs : t.canGetRegs = true
  fpregs : t.fpregsSupported = true → t.canGetFpregs = true
  length : fxsaveMinLen ≤ t.fpregs.length

def Target.block (t : Target) : Option DebugFpregs :=
  if t.fpregsSupported then some t.fpregs else none

theorem regCast_valid_iff {n : Nat} : gdbRegValid (regCast n) = true ↔ n % 2 ^ 32 ≤ 56 := by
  unfold gdbRegValid gdbRegIsCore gdbRegIsX87 gdbRegIsSse regCast int32
  simp only [Bool.or_eq_true, decide_eq_true_eq]
  split_ifs <;> omega

theorem regCast_of_le {n : Nat} (h : n % 2 ^ 32 ≤ 56) : regCast n = (n % 2 ^ 32 : Nat) :=
  if_pos (by omega)

theorem reg_cases {n : Nat} (h : n ≤ 56) :
    (gdbRegIsSse n || gdbRegIsX87 n) = decide (24 ≤ n) ∧ gdbRegIsSse n = decide (40 ≤ n) ∧
      gdbRegIsX87 n = decide (24 ≤ n ∧ n ≤ 39) ∧ gdbRegSize n ≤ 16 := by
  have htable : ∀ n : Nat, n < 57 → (gdbRegIsSse n || gdbRegIsX87 n) = decide (24 ≤ n) ∧
      gdbRegIsSse n = decide (40 ≤ n) ∧ gdbRegIsX87 n = decide (24 ≤ n ∧ n ≤ 39) ∧
        gdbRegSize n ≤ 16 := by decide
  exact htable n (by omega)

theorem handleReadAllRegisters_eq {t : Target} (ht : t.Readable) :
    handleReadAllRegisters t = gdbEncodeGPacket t.regs t.block := by
  unfold handleReadAllRegisters Target.block
  rw [ht.attached, ht.regs]
  cases hfp : t.fpregsSupported with
  | false => rfl
  | true =>
    rw [ht.fpregs hfp]
    rfl

theorem regSlice_handleReadAllRegisters {t : Target} (ht : t.Readable) {m : Nat} (h : m ≤ 56) :
    regSlice (handleReadAllRegisters t) m = regHex t.regs t.block m := by
  rw [handleReadAllRegisters_eq ht, regSlice_gdbEncodeGPacket _ _ h]

theorem bytesToHex_replicate (n : Nat) :
    bytesToHex (List.replicate n 0) = List.replicate (n * 2) 48 := by
  induction n with
  | zero => rfl
  | succ n ih =>
    rw [replicate_succ, bytesToHex, flatMap_cons, ← bytesToHex, ih,
      Nat.add_mul, Nat.add_comm (n * 2), replicate_add]
    rfl

theorem fpBytes_eq (regs : DebugRegs) (f : DebugFpregs) {n : Nat} (h : 24 ≤ n ∧ n ≤ 56) :
    (if gdbRegIsSse n then gdbGetSseBytes f n 16 else gdbGetX87Bytes f n 16) =
      some (regBytes regs (some f) n) := by
  obtain ⟨-, hsse, hx87, hsize⟩ := reg_cases h.2
  unfold regBytes gdbGetSseBytes gdbGetX87Bytes fpSpan
  have hcore : ¬n < 24 := by omega
  have hfits : ¬16 < gdbRegSize n := Nat.not_lt.mpr hsize
  rw [hsse, hx87, if_neg hcore]
  by_cases hlow : n ≤ 39
  · have hhigh : ¬40 ≤ n := by omega
    simp only [hhigh, hlow, h.1, hfits, decide_true, decide_false, and_self, not_true_eq_false,
      or_self, Bool.false_eq_true, if_true, if_false]
  · have hhigh : 40 ≤ n := by omega
    simp only [hhigh, hlow, hfits, decide_true, not_true_eq_false, or_self, if_true, if_false]

theorem handleReadRegister_eq {t : Target} (ht : t.Readable) {packet : List UInt8} {n : Nat}
    (hn : parseHexText (packet.drop 1) = some n) :
    handleReadRegister t packet =
      if n % 2 ^ 32 ≤ 56 then regHex t.regs t.block (n % 2 ^ 32) else errPacket 1 := by
  unfold handleReadRegister
  rw [ht.attached, hn]
  dsimp only
  by_cases hvalid : n % 2 ^ 32 ≤ 56
  · rw [if_pos hvalid, regCast_valid_iff.mpr hvalid, regCast_of_le hvalid, Int.toNat_natCast]
    generalize n % 2 ^ 32 = ir at hvalid ⊢
    obtain ⟨hfp, -, -, hsize⟩ := reg_cases hvalid
    rw [hfp]
    simp only [Bool.not_true, Bool.false_eq_true, if_false]
    by_cases hlow : 24 ≤ ir
    · rw [if_pos (decide_eq_true hlow)]
      unfold regHex Target.block
      cases hsupported : t.fpregsSupported with
      | false =>
        rw [if_neg Bool.false_ne_true, regBytes, if_neg (Nat.not_lt.mpr hlow),
          bytesToHex_replicate]
        rfl
      | true =>
        rw [ht.fpregs hsupported, fpBytes_eq t.regs t.fpregs ⟨hlow, hvalid⟩, if_pos rfl]
        rfl
    · rw [ht.regs, if_neg (Bool.eq_false_iff.mp (decide_eq_false hlow)), regHex,
        ← coreBytes_eq t.regs t.block (Nat.not_le.mp hlow)]
      rfl
  · rw [if_neg hvalid, Bool.eq_false_iff.mpr (mt regCast_valid_iff.mp hvalid)]
    rfl

theorem fpStored {f f' : DebugFpregs} (hf : fxsaveMinLen ≤ f.length) {n : Nat} (h : 24 ≤ n ∧ n ≤ 56)
    {data : List UInt8}
    (hset : (if gdbRegIsSse n then gdbSetSseBytes f n data else gdbSetX87Bytes f n data) =
      some f') :
    fxsaveMinLen ≤ f'.length ∧ ∀ m, 24 ≤ m ∧ m ≤ 56 → m ≠ n →
      spanBytes f' (fpSpan m) (gdbRegSize m) = spanBytes f (fpSpan m) (gdbRegSize m) := by
  obtain ⟨-, hsse, hx87, -⟩ := reg_cases h.2
  have hstored : f' = storeSpan f (fpSpan n) data := by
    rw [hsse] at hset
    by_cases hlow : n ≤ 39
    · have hhigh : ¬40 ≤ n := by omega
      rw [if_neg (Bool.eq_false_iff.mp (decide_eq_false hhigh)), gdbSetX87Bytes] at hset
      split_ifs at hset
      rw [fpSpan, if_pos hlow]
      exact (Option.some.inj hset).symm
    · have hhigh : 40 ≤ n := by omega
      rw [if_pos (decide_eq_true hhigh), gdbSetSseBytes] at hset
      split_ifs at hset
      rw [fpSpan, if_neg hlow]
      exact (Option.some.inj hset).symm
  subst hstored
  refine ⟨?_, fun m hm hne => ?_⟩
  · unfold storeSpan
    rw [ensureFxsave_of_le hf]
    exact hf
  · exact spanBytes_storeSpan hf (fun k hk => fpSpan_apart h hm hne hk) data _

theorem handleWriteRegister_block {t : Target} (ht : t.Readable) {n : Nat} (h : 24 ≤ n ∧ n ≤ 56)
    {data : List UInt8} {result : List UInt8 × Target}
    (hresult : result = if !t.fpregsSupported then (okPacket, t)
      else if !t.canGetFpregs then (errPacket 1, t)
      else
        match if gdbRegIsSse n then gdbSetSseBytes t.fpregs n data
          else gdbSetX87Bytes t.fpregs n data with
        | none => (errPacket 1, t)
        | some fpregs =>
          if !t.canSetFpregs then (errPacket 1, t) else (okPacket, { t with fpregs := fpregs }))
    (hok : result.1 = okPacket) :
    result.2.Readable ∧ ∀ m ≤ 56, m ≠ n →
      regHex result.2.regs result.2.block m = regHex t.regs t.block m := by
  have herr : errPacket 1 ≠ okPacket := by decide
  subst hresult
  by_cases hfp : (!t.fpregsSupported) = true
  · rw [if_pos hfp]
    exact ⟨ht, fun m _ _ => rfl⟩
  have hsupported : t.fpregsSupported = true := by simpa using hfp
  have hget : ¬(!t.canGetFpregs) = true := by rw [ht.fpregs hsupported]; decide
  rw [if_neg hfp, if_neg hget] at hok ⊢
  cases hset : (if gdbRegIsSse n then gdbSetSseBytes t.fpregs n data
    else gdbSetX87Bytes t.fpregs n data) with
  | none =>
    rw [hset] at hok
    exact (herr hok).elim
  | some f =>
    rw [hset] at hok
    dsimp only at hok ⊢
    by_cases hcan : (!t.canSetFpregs) = true
    · rw [if_pos hcan] at hok
      exact (herr hok).elim
    · rw [if_neg hcan]
      obtain ⟨hlen, hothers⟩ := fpStored ht.length h hset
      refine ⟨⟨ht.attached, ht.regs, ht.fpregs, hlen⟩, fun m hm hne => ?_⟩
      simp only [Target.block, hsupported, if_true, regHex, regBytes]
      by_cases hcore : m < 24
      · rw [if_pos hcore, if_pos hcore]
      · rw [if_neg hcore, if_neg hcore, hothers m ⟨Nat.not_lt.mp hcore, hm⟩ hne]

theorem handleWriteRegister_core {t : Target} (ht : t.Readable) {n : Nat} (h : n < 24)
    {data : List UInt8} {result : List UInt8 × Target}
    (hresult : result = if !t.canGetRegs then (errPacket 1, t)
      else
        match gdbSetRegValue t.regs n (leNat data) with
        | none => (errPacket 1, t)
        | some regs =>
          if !t.canSetRegs then (errPacket 1, t) else (okPacket, { t with regs := regs }))
    (hok : result.1 = okPacket) :
    result.2.Readable ∧ ∀ m ≤ 56, m ≠ n →
      regHex result.2.regs result.2.block m = regHex t.regs t.block m := by
  have herr : errPacket 1 ≠ okPacket := by decide
  subst hresult
  have hget : ¬(!t.canGetRegs) = true := by rw [ht.regs]; decide
  rw [if_neg hget] at hok ⊢
  cases hset : gdbSetRegValue t.regs n (leNat data) with
  | none =>
    rw [hset] at hok
    exact (herr hok).elim
  | some regs =>
    rw [hset] at hok
    dsimp only at hok ⊢
    by_cases hcan : (!t.canSetRegs) = true
    · rw [if_pos hcan] at hok
      exact (herr hok).elim
    · rw [if_neg hcan]
      refine ⟨⟨ht.attached, ht.regs, ht.fpregs, ht.length⟩, fun m hm hne => ?_⟩
      simp only [regHex, regBytes]
      by_cases hcore : m < 24
      · rw [if_pos hcore, if_pos hcore, gdbGetRegValue_set_of_ne h hcore hne hset]
      · rw [if_neg hcore, if_neg hcore]
        rfl

theorem handleWriteRegister_frame {t : Target} (ht : t.Readable) {packet : List UInt8} {eq n : Nat}
    (hfind : findChar packet 61 0 = some eq) (hn : parseHexU64 packet 1 eq = some n)
    (hok : (handleWriteRegister t packet).1 = okPacket) :
    n % 2 ^ 32 ≤ 56 ∧ (handleWriteRegister t packet).2.Readable ∧
      ∀ m ≤ 56, m ≠ n % 2 ^ 32 →
        regHex (handleWriteRegister t packet).2.regs (handleWriteRegister t packet).2.block m =
          regHex t.regs t.block m := by
  have herr : errPacket 1 ≠ okPacket := by decide
  unfold handleWriteRegister at hok ⊢
  rw [hfind] at hok ⊢
  dsimp only at hok ⊢
  have hattached : ¬(!t.attached) = true := by rw [ht.attached]; decide
  rw [hn, if_neg hattached] at hok ⊢
  dsimp only at hok ⊢
  by_cases hvalid : n % 2 ^ 32 ≤ 56
  · refine ⟨hvalid, ?_⟩
    rw [regCast_valid_iff.mpr hvalid, regCast_of_le hvalid, Int.toNat_natCast] at hok ⊢
    generalize n % 2 ^ 32 = ir at hvalid hok ⊢
    obtain ⟨hfp, -, -, -⟩ := reg_cases hvalid
    rw [hfp] at hok ⊢
    simp only [Bool.not_true, Bool.false_eq_true, if_false] at hok ⊢
    generalize (if (packet.drop (eq + 1)).length = gdbRegSize ir * 2 then
      hexToBytes (packet.drop (eq + 1)) else none) = value at hok ⊢
    cases value with
    | none => exact (herr hok).elim
    | some data =>
      dsimp only at hok ⊢
      by_cases hlow : 24 ≤ ir
      · rw [if_pos (decide_eq_true hlow)] at hok ⊢
        exact handleWriteRegister_block ht ⟨hlow, hvalid⟩ rfl hok
      · rw [if_neg (Bool.eq_false_iff.mp (decide_eq_false hlow))] at hok ⊢
        exact handleWriteRegister_core ht (Nat.not_le.mp hlow) rfl hok
  · rw [Bool.eq_false_iff.mpr (mt regCast_valid_iff.mp hvalid)] at hok
    exact (herr hok).elim

/-- What `p` returns for a number is its part of `g`, or an error. -/
def ReadExact (t : Target) (packet : List UInt8) (n : Nat) : Prop :=
  handleReadRegister t packet =
    if n ≤ 56 then regSlice (handleReadAllRegisters t) n else errPacket 1

/-- A successful `P` of a number changes no other part of a later `g`. -/
def WriteExact (t : Target) (packet : List UInt8) (n : Nat) : Prop :=
  (handleWriteRegister t packet).1 = okPacket → ∀ m ≤ 56, m ≠ n →
    regSlice (handleReadAllRegisters (handleWriteRegister t packet).2) m =
      regSlice (handleReadAllRegisters t) m

def writeNumber (packet : List UInt8) : Option Nat :=
  (findChar packet 61 0).bind fun eq => parseHexU64 packet 1 eq

/-- No number but its own is left of it where it is narrowed. -/
abbrev Unwrapped (n : Nat) : Prop := n < 2 ^ 32 ∨ 56 < n % 2 ^ 32

theorem errPacket_ne_regHex (regs : DebugRegs) (fpregs : Option DebugFpregs) {n : Nat}
    (h : n ≤ 56) : regHex regs fpregs n ≠ errPacket 1 := by
  intro heq
  have hlen := length_regHex regs fpregs h
  rw [heq] at hlen
  have hodd : gdbRegSize n * 2 = 3 := hlen.symm
  omega

theorem readExact_iff {t : Target} (ht : t.Readable) {packet : List UInt8} {n : Nat}
    (hn : parseHexText (packet.drop 1) = some n) : ReadExact t packet n ↔ Unwrapped n := by
  unfold ReadExact Unwrapped
  rw [handleReadRegister_eq ht hn]
  by_cases hsmall : n < 2 ^ 32
  · rw [Nat.mod_eq_of_lt hsmall]
    refine ⟨fun _ => .inl hsmall, fun _ => ?_⟩
    split_ifs with h
    · rw [regSlice_handleReadAllRegisters ht h]
    · rfl
  · have hlarge : ¬n ≤ 56 := by omega
    rw [if_neg hlarge]
    by_cases hvalid : n % 2 ^ 32 ≤ 56
    · rw [if_pos hvalid]
      refine ⟨fun h => (errPacket_ne_regHex _ _ hvalid h).elim, fun h => ?_⟩
      omega
    · rw [if_neg hvalid]
      exact ⟨fun _ => .inr (Nat.not_le.mp hvalid), fun _ => rfl⟩

theorem writeExact_of_unwrapped {t : Target} (ht : t.Readable) {packet : List UInt8} {n : Nat}
    (hn : writeNumber packet = some n) (h : Unwrapped n) : WriteExact t packet n := by
  intro hok m hm hne
  obtain ⟨eq, hfind, hparse⟩ := Option.bind_eq_some_iff.mp hn
  obtain ⟨hvalid, hreadable, hothers⟩ := handleWriteRegister_frame ht hfind hparse hok
  have hmod : n % 2 ^ 32 = n := Nat.mod_eq_of_lt (h.resolve_right (Nat.not_lt.mpr hvalid))
  rw [regSlice_handleReadAllRegisters hreadable hm, regSlice_handleReadAllRegisters ht hm]
  exact hothers m hm (hmod.symm ▸ hne)

/-- A packet of all registers decodes to them and touches nothing else of the block; one register
is read and written as its part of that packet, exactly where its number does not wrap. -/
theorem registers_agree_iff {t : Target} (ht : t.Readable) :
    (∀ (regs dst : DebugRegs) (fp fdst : DebugFpregs), fxsaveMinLen ≤ fp.length →
        fxsaveMinLen ≤ fdst.length →
        ∃ r f, gdbDecodeGPacket (gdbEncodeGPacket regs (some fp)) dst (some fdst) =
            some (r, some f) ∧
          (∀ n < 24, gdbGetRegValue r n = gdbGetRegValue regs n) ∧ f.length = fdst.length ∧
          ∀ k, f.data k = if RepresentedByte k then fp.data k else fdst.data k) ∧
      (∀ packet, parseHexText (packet.drop 1) = none →
        handleReadRegister t packet = errPacket 1) ∧
      ∀ packet n, parseHexText (packet.drop 1) = some n →
        ((ReadExact t packet n ∧ ∀ written, writeNumber written = some n → WriteExact t written n) ↔
          Unwrapped n) := by
  refine ⟨fun regs dst fp fdst hfp hfdst => gdbDecodeGPacket_encode regs dst hfp hfdst,
    fun packet hnone => ?_, fun packet n hn => ⟨fun h => (readExact_iff ht hn).mp h.1, fun h =>
      ⟨(readExact_iff ht hn).mpr h, fun written hwritten =>
        writeExact_of_unwrapped ht hwritten h⟩⟩⟩
  unfold handleReadRegister
  rw [hnone]
  split_ifs <;> rfl

def readableTarget : Target where
  attached := true
  regs := fun _ => 0
  fpregs := { length := 512, data := fun _ => 0 }
  fpregsSupported := true
  canGetRegs := true
  canSetRegs := true
  canGetFpregs := true
  canSetFpregs := true

theorem readableTarget_readable : readableTarget.Readable :=
  ⟨rfl, rfl, fun _ => rfl, Nat.le_refl _⟩

theorem registers_agree_iff_sixteenth :
    ReadExact readableTarget [112, 49, 48] 16 ∧
      WriteExact readableTarget
        [80, 49, 48, 61, 49, 49, 50, 50, 51, 51, 52, 52, 53, 53, 54, 54, 55, 55, 56, 56] 16 := by
  obtain ⟨-, -, h⟩ := registers_agree_iff readableTarget_readable
  obtain ⟨hread, hwrite⟩ := (h [112, 49, 48] 16 (by decide)).mpr (.inl (by decide))
  exact ⟨hread, hwrite _ (by decide)⟩

theorem handleReadRegister_wraps :
    readableTarget.Readable ∧
      parseHexText (List.drop 1 [112, 49, 48, 48, 48, 48, 48, 48, 48, 48]) = some (2 ^ 32) ∧
        ¬ReadExact readableTarget [112, 49, 48, 48, 48, 48, 48, 48, 48, 48] (2 ^ 32) := by
  refine ⟨readableTarget_readable, by decide, ?_⟩
  unfold ReadExact
  decide

end MemDbg.Gdb
