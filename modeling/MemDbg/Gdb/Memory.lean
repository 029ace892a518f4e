import MemDbg.Gdb.Rsp
import MemDbg.Lib.Bytes
import MemDbg.Lib.Search
import MemDbg.Lib.Transition

/-!
# Memory packets

The bridge keeps the byte under each software breakpoint it has set, next to the byte
the daemon keeps for itself, and puts it into what is read.  What a client should see is
the memory that has no breakpoints, in which only its own writes change bytes.
-/

namespace MemDbg.Gdb

open List Lib Function

/-! ## Texts -/

def memChunk : Nat := 0x10000

def rspMaxMemory : Nat := 0x100000

def maxU64 : Nat := 2 ^ 64 - 1

def parseHexFrom : Nat → List UInt8 → Option Nat
  | value, [] => some value
  | value, c :: rest =>
    match hexNibble c with
    | none => none
    | some n => if value > (maxU64 - n) / 16 then none else parseHexFrom (value * 16 + n) rest

def parseHexU64 (s : List UInt8) (start stop : Nat) : Option Nat :=
  if start ≥ stop ∨ stop > s.length then none else parseHexFrom 0 ((s.take stop).drop start)

def findChar (s : List UInt8) (c : UInt8) (pos : Nat) : Option Nat :=
  ((s.drop pos).findIdx? (· == c)).map (pos + ·)

def bytesToHex (data : List UInt8) : List UInt8 :=
  data.flatMap fun b => [hexDigit (b.toNat / 16), hexDigit (b.toNat % 16)]

def hexToBytes : List UInt8 → Option (List UInt8)
  | [] => some []
  | [_] => none
  | c₁ :: c₂ :: rest =>
    match hexNibble c₁, hexNibble c₂ with
    | some hi, some lo => (hexToBytes rest).map (UInt8.ofNat (hi * 16 + lo) :: ·)
    | _, _ => none

def errPacket (code : Nat) : List UInt8 := [69, hexDigit (code / 16 % 16), hexDigit (code % 16)]

def okPacket : List UInt8 := [79, 75]

def notFoundPacket : List UInt8 := [48]

def foundPacket (address : Nat) : List UInt8 :=
  [49, 44] ++ (Nat.toDigits 16 address).map fun c => UInt8.ofNat c.toNat

/-! ## Requests -/

structure MapEntry where
  start : Nat
  stop : Nat
deriving DecidableEq

def coveredEnd (maps : List MapEntry) (requestEnd cursor : Nat) : Nat :=
  maps.foldl (fun covered map =>
    if map.start ≤ cursor ∧ cursor < map.stop ∧ map.stop > covered then min map.stop requestEnd
    else covered) cursor

theorem le_coveredEnd (maps : List MapEntry) {requestEnd cursor : Nat}
    (h : cursor < requestEnd) : cursor ≤ coveredEnd maps requestEnd cursor := by
  refine List.foldlRecOn (motive := fun covered => cursor ≤ covered) maps _ (Nat.le_refl _)
    fun covered hcovered map _ => ?_
  split_ifs with hmap
  · exact Nat.le_min.2 ⟨Nat.le_of_lt hmap.2.1, Nat.le_of_lt h⟩
  · exact hcovered

def mappedFrom (maps : List MapEntry) (requestEnd cursor : Nat) : Bool :=
  if _h : cursor < requestEnd then
    if _h' : coveredEnd maps requestEnd cursor = cursor then false
    else mappedFrom maps requestEnd (coveredEnd maps requestEnd cursor)
  else true
termination_by requestEnd - cursor
decreasing_by
  have hle := le_coveredEnd maps _h
  omega

def gdbMemoryRangeMapped (maps : List MapEntry) (address length : Nat) : Bool :=
  if length = 0 then true
  else if address > maxU64 - length then false
  else mappedFrom maps (address + length) address

def unmapped (maps : Option (List MapEntry)) (address length : Nat) : Bool :=
  match maps with
  | none => false
  | some maps => !gdbMemoryRangeMapped maps address length

def parseMemoryRead (maps : Option (List MapEntry)) (packet : List UInt8) :
    Except (List UInt8) (Nat × Nat) :=
  match findChar packet 44 0 with
  | none => .error (errPacket 1)
  | some comma =>
    match parseHexU64 packet 1 comma, parseHexU64 packet (comma + 1) packet.length with
    | some addr, some length =>
      if length = 0 then .error []
      else if length > rspMaxMemory ∨ addr > maxU64 - length then .error (errPacket 0x22)
      else if unmapped maps addr length then .error (errPacket 1)
      else .ok (addr, length)
    | _, _ => .error (errPacket 1)

def parseMemoryWrite (maps : Option (List MapEntry)) (packet : List UInt8) :
    Except (List UInt8) (Nat × List UInt8) :=
  match findChar packet 44 0, findChar packet 58 0 with
  | some comma, some colon =>
    if colon < comma then .error (errPacket 1)
    else
      match parseHexU64 packet 1 comma, parseHexU64 packet (comma + 1) colon with
      | some addr, some length =>
        if length > rspMaxMemory ∨ addr > maxU64 - length then .error (errPacket 0x22)
        else if unmapped maps addr length then .error (errPacket 1)
        else if (packet.drop (colon + 1)).length ≠ length * 2 then .error (errPacket 1)
        else
          match hexToBytes (packet.drop (colon + 1)) with
          | none => .error (errPacket 1)
          | some data => .ok (addr, data)
      | _, _ => .error (errPacket 1)
  | _, _ => .error (errPacket 1)

def parseBinaryMemoryWrite (maps : Option (List MapEntry)) (packet : List UInt8) :
    Except (List UInt8) (Nat × List UInt8) :=
  match findChar packet 44 0, findChar packet 58 0 with
  | some comma, some colon =>
    if comma ≤ 1 ∨ colon ≤ comma + 1 then .error (errPacket 1)
    else
      match parseHexU64 packet 1 comma, parseHexU64 packet (comma + 1) colon with
      | some addr, some length =>
        if length > rspMaxMemory ∨ addr > maxU64 - length then .error (errPacket 0x22)
        else if unmapped maps addr length then .error (errPacket 1)
        else if (packet.drop (colon + 1)).length ≠ length then .error (errPacket 1)
        else .ok (addr, packet.drop (colon + 1))
      | _, _ => .error (errPacket 1)
  | _, _ => .error (errPacket 1)

def searchPrefix : List UInt8 :=
  [113, 83, 101, 97, 114, 99, 104, 58, 109, 101, 109, 111, 114, 121, 58]

structure SearchRequest where
  address : Nat
  length : Nat
  pattern : List UInt8
deriving DecidableEq

def parseSearchMemory (maps : Option (List MapEntry)) (packet : List UInt8) :
    Except (List UInt8) SearchRequest :=
  if ¬ searchPrefix <+: packet then .error (errPacket 1)
  else
    match findChar packet 59 searchPrefix.length with
    | none => .error (errPacket 1)
    | some semi1 =>
      match findChar packet 59 (semi1 + 1) with
      | none => .error (errPacket 1)
      | some semi2 =>
        match parseHexU64 packet searchPrefix.length semi1,
            parseHexU64 packet (semi1 + 1) semi2 with
        | some address, some length =>
          if length > 0x4000000 ∨ address > maxU64 - length then .error (errPacket 0x22)
          else
            let pattern := packet.drop (semi2 + 1)
            if pattern = [] ∨ pattern.length > 0x1000 ∨ pattern.length > length ∨
                unmapped maps address length then
              .error (if pattern.length > length then notFoundPacket else errPacket 1)
            else .ok ⟨address, length, pattern⟩
        | _, _ => .error (errPacket 0x22)

def parseSwBreakpoint (packet : List UInt8) : Except (List UInt8) Nat :=
  if packet.length < 5 then .error (errPacket 1)
  else
    match findChar packet 44 2 with
    | none => .error (errPacket 1)
    | some comma1 =>
      let comma2 := (findChar packet 44 (comma1 + 1)).getD packet.length
      match parseHexU64 packet (comma1 + 1) comma2,
          if comma2 < packet.length then parseHexU64 packet (comma2 + 1) packet.length
          else some 1 with
      | some addr, some kind => if kind ≠ 1 then .error (errPacket 0x22) else .ok addr
      | _, _ => .error (errPacket 1)

/-! ## The bridge -/

structure Bridge where
  mem : Nat → UInt8
  saved : Nat → Option UInt8
  shadow : Nat → Option UInt8
  maps : Option (List MapEntry)

namespace Bridge

def debugSetBreakpoint (s : Bridge) (addr : Nat) : Option Bridge :=
  match s.saved addr with
  | some _ => none
  | none =>
    some { s with
      mem := update s.mem addr 0xCC
      saved := update s.saved addr (some (s.mem addr)) }

def debugClearBreakpoint (s : Bridge) (addr : Nat) : Option Bridge :=
  match s.saved addr with
  | none => none
  | some byte =>
    some { s with
      mem := update s.mem addr byte
      saved := update s.saved addr none }

def maskedChunk (s : Bridge) (addr chunk : Nat) : List UInt8 :=
  (slice s.mem addr chunk).mapIdx fun i b => (s.shadow (addr + i)).getD b

def readLoop (s : Bridge) (addr length done : Nat) : List UInt8 :=
  if done < length then
    bytesToHex (s.maskedChunk (addr + done) (min (length - done) memChunk)) ++
      s.readLoop addr length (done + min (length - done) memChunk)
  else []
termination_by length - done
decreasing_by
  rw [memChunk]
  omega

def handleMemoryRead (s : Bridge) (packet : List UInt8) : List UInt8 :=
  match parseMemoryRead s.maps packet with
  | .error reply => reply
  | .ok (addr, length) => s.readLoop addr length 0

def writeParsed (s : Bridge) : Except (List UInt8) (Nat × List UInt8) → List UInt8 × Bridge
  | .error reply => (reply, s)
  | .ok (addr, data) => (okPacket, { s with mem := store s.mem addr data })

def handleMemoryWrite (s : Bridge) (packet : List UInt8) : List UInt8 × Bridge :=
  s.writeParsed (parseMemoryWrite s.maps packet)

def handleBinaryMemoryWrite (s : Bridge) (packet : List UInt8) : List UInt8 × Bridge :=
  s.writeParsed (parseBinaryMemoryWrite s.maps packet)

def handleSwBreakpoint (s : Bridge) (packet : List UInt8) (enable : Bool) : List UInt8 × Bridge :=
  match parseSwBreakpoint packet with
  | .error reply => (reply, s)
  | .ok addr =>
    if enable then
      match s.debugSetBreakpoint addr with
      | none => (errPacket 1, s)
      | some s' => (okPacket, { s' with shadow := update s'.shadow addr (some (s.mem addr)) })
    else
      match s.debugClearBreakpoint addr with
      | none => (errPacket 1, s)
      | some s' => (okPacket, { s' with shadow := update s'.shadow addr none })

end Bridge

def stdSearch (window pattern : List UInt8) : Option Nat :=
  (List.range (window.length + 1 - pattern.length)).find? fun i =>
    (window.drop i).take pattern.length == pattern

def searchLoop (mem : Nat → UInt8) (r : SearchRequest) (cursor : Nat) (carry : List UInt8) :
    List UInt8 :=
  if cursor < r.address + r.length then
    let amount := min memChunk (r.address + r.length - cursor)
    let window := carry ++ slice mem cursor amount
    match stdSearch window r.pattern with
    | some i => foundPacket (cursor - carry.length + i)
    | none =>
      searchLoop mem r (cursor + amount)
        (window.drop (window.length - min (r.pattern.length - 1) window.length))
  else notFoundPacket
termination_by r.address + r.length - cursor
decreasing_by
  rw [memChunk]
  omega

def Bridge.handleSearchMemory (s : Bridge) (packet : List UInt8) : List UInt8 :=
  match parseSearchMemory s.maps packet with
  | .error reply => reply
  | .ok r => searchLoop s.mem r r.address []

/-! ## A memory without breakpoints -/

def plainRead (maps : Option (List MapEntry)) (mem : Nat → UInt8) (packet : List UInt8) :
    List UInt8 :=
  match parseMemoryRead maps packet with
  | .error reply => reply
  | .ok (addr, length) => bytesToHex (slice mem addr length)

def occursAt (mem : Nat → UInt8) (pattern : List UInt8) (a : Nat) : Bool :=
  slice mem a pattern.length == pattern

def plainSearch (maps : Option (List MapEntry)) (mem : Nat → UInt8) (packet : List UInt8) :
    List UInt8 :=
  match parseSearchMemory maps packet with
  | .error reply => reply
  | .ok r =>
    match (hits (occursAt mem r.pattern) r.address (r.length + 1 - r.pattern.length)).head? with
    | some a => foundPacket a
    | none => notFoundPacket

def plainWrite (mem : Nat → UInt8) : Except (List UInt8) (Nat × List UInt8) → Nat → UInt8
  | .error _ => mem
  | .ok (addr, data) => store mem addr data

/-! ## Reading and searching -/

theorem bytesToHex_append (data data' : List UInt8) :
    bytesToHex (data ++ data') = bytesToHex data ++ bytesToHex data' :=
  flatMap_append

namespace Bridge

def view (s : Bridge) : Nat → UInt8 := fun a => (s.shadow a).getD (s.mem a)

variable (s : Bridge)

theorem maskedChunk_eq (addr chunk : Nat) : s.maskedChunk addr chunk = slice s.view addr chunk := by
  refine ext_getElem ?_ fun i _ _ => ?_
  · rw [maskedChunk, length_mapIdx, length_slice, length_slice]
  · simp only [maskedChunk, slice, getElem_mapIdx, getElem_map, getElem_range',
      Nat.one_mul, view]

theorem readLoop_eq (addr length : Nat) (done : Nat) :
    s.readLoop addr length done = bytesToHex (slice s.view (addr + done) (length - done)) := by
  induction done using readLoop.induct length with
  | case1 done hlt ih =>
    rw [readLoop, if_pos hlt, ih, maskedChunk_eq, ← bytesToHex_append, ← Nat.add_assoc,
      slice_append]
    congr 2
    omega
  | case2 done hge =>
    rw [readLoop, if_neg hge, Nat.sub_eq_zero_of_le (Nat.not_lt.1 hge)]
    rfl

theorem handleMemoryRead_eq (packet : List UInt8) :
    s.handleMemoryRead packet = plainRead s.maps s.view packet := by
  rw [handleMemoryRead, plainRead]
  split
  · rfl
  · rw [readLoop_eq, Nat.add_zero, Nat.sub_zero]

end Bridge

section

variable (mem : Nat → UInt8)

theorem stdSearch_slice (base n : Nat) (pattern : List UInt8) :
    (stdSearch (slice mem base n) pattern).map (base + ·) =
      (hits (occursAt mem pattern) base (n + 1 - pattern.length)).head? := by
  have hwindow : stdSearch (slice mem base n) pattern =
      (hits (fun i => occursAt mem pattern (base + i)) 0 (n + 1 - pattern.length)).head? := by
    rw [stdSearch, length_slice, range_eq_range', ← head?_filter, ← hits]
    refine congrArg List.head? (hits_congr fun i _ hi => ?_)
    rw [drop_slice, take_slice mem (by omega), occursAt]
  rw [hwindow, ← head?_map, hits_shift]

def searchReply (found : Option Nat) : List UInt8 :=
  match found with
  | some a => foundPacket a
  | none => notFoundPacket

theorem searchLoop_eq (r : SearchRequest) (hpattern : 0 < r.pattern.length) (scanned : Nat)
    (hscanned : scanned ≤ r.length)
    (hnone : hits (occursAt mem r.pattern) r.address (scanned + 1 - r.pattern.length) = []) :
    searchLoop mem r (r.address + scanned)
        (slice mem (r.address + scanned - min scanned (r.pattern.length - 1))
          (min scanned (r.pattern.length - 1))) =
      searchReply
        (hits (occursAt mem r.pattern) r.address (r.length + 1 - r.pattern.length)).head? := by
  induction hleft : r.length - scanned using Nat.strongRecOn generalizing scanned with
  | ind left ih =>
    subst hleft
    rw [searchLoop]
    split_ifs with hlt
    · generalize hamount : min memChunk (r.address + r.length - (r.address + scanned)) = amount
      have hpos : 0 < amount ∧ scanned + amount ≤ r.length := by
        rw [memChunk] at hamount
        omega
      generalize hcarry : min scanned (r.pattern.length - 1) = carry
      generalize hbase : r.address + scanned - carry = base
      have hcursor : r.address + scanned = base + carry := by omega
      have hsplit := @hits_window (occursAt mem r.pattern) r.address scanned amount _ hpattern
      rw [hnone, nil_append, hcarry, hbase] at hsplit
      have hall := hits_add (p := occursAt mem r.pattern) r.address
        (scanned + amount + 1 - r.pattern.length)
        (r.length + 1 - r.pattern.length - (scanned + amount + 1 - r.pattern.length))
      rw [Nat.add_sub_cancel' (by omega)] at hall
      have hfind := stdSearch_slice mem base (carry + amount) r.pattern
      rw [hsplit] at hfind
      dsimp only
      rw [hcursor, slice_append]
      cases hwindow : stdSearch (slice mem base (carry + amount)) r.pattern with
      | some i =>
        rw [hwindow, Option.map_some] at hfind
        rw [hall, head?_append, ← hfind, length_slice, Nat.add_sub_cancel]
        rfl
      | none =>
        rw [hwindow, Option.map_none, eq_comm, head?_eq_none_iff] at hfind
        dsimp only
        rw [drop_slice, length_slice]
        have hgo := ih (r.length - (scanned + amount)) (by omega) (scanned + amount) hpos.2
          hfind rfl
        convert hgo using 2
        · omega
        · congr 1
          · omega
          · omega
    · have hend : scanned = r.length := by omega
      rw [hend] at hnone
      rw [hnone]
      rfl

theorem parseSearchMemory_pattern {maps : Option (List MapEntry)} {packet : List UInt8}
    {r : SearchRequest} (h : parseSearchMemory maps packet = .ok r) : 0 < r.pattern.length := by
  rw [parseSearchMemory] at h
  dsimp only at h
  repeat' split at h
  all_goals try cases h
  rename_i hpattern
  rw [not_or] at hpattern
  exact length_pos_iff.2 hpattern.1

theorem handleSearchMemory_eq (s : Bridge) (packet : List UInt8) :
    s.handleSearchMemory packet = plainSearch s.maps s.mem packet := by
  rw [Bridge.handleSearchMemory, plainSearch]
  split
  · rfl
  · rename_i r hr
    have hpattern := parseSearchMemory_pattern hr
    have hloop := searchLoop_eq s.mem r hpattern 0 (Nat.zero_le _) (by
      rw [Nat.sub_eq_zero_of_le (by omega)]
      rfl)
    rw [Nat.zero_min, slice_zero, Nat.add_zero] at hloop
    rw [hloop]
    rfl

end

/-! ## Every run -/

inductive Request where
  | memoryRead (packet : List UInt8)
  | memoryWrite (packet : List UInt8)
  | binaryMemoryWrite (packet : List UInt8)
  | searchMemory (packet : List UInt8)
  | insertBreakpoint (packet : List UInt8)
  | removeBreakpoint (packet : List UInt8)

def Request.serve (s : Bridge) : Request → List UInt8 × Bridge
  | memoryRead packet => (s.handleMemoryRead packet, s)
  | memoryWrite packet => s.handleMemoryWrite packet
  | binaryMemoryWrite packet => s.handleBinaryMemoryWrite packet
  | searchMemory packet => (s.handleSearchMemory packet, s)
  | insertBreakpoint packet => s.handleSwBreakpoint packet true
  | removeBreakpoint packet => s.handleSwBreakpoint packet false

def Request.plainReply (maps : Option (List MapEntry)) (mem : Nat → UInt8) :
    Request → Option (List UInt8)
  | memoryRead packet => some (plainRead maps mem packet)
  | searchMemory packet => some (plainSearch maps mem packet)
  | _ => none

def Request.plainEffect (maps : Option (List MapEntry)) (mem : Nat → UInt8) :
    Request → Nat → UInt8
  | memoryWrite packet => plainWrite mem (parseMemoryWrite maps packet)
  | binaryMemoryWrite packet => plainWrite mem (parseBinaryMemoryWrite maps packet)
  | _ => mem

def bridgeStep (p : Bridge × (Nat → UInt8)) (req : Request) :
    Option (Bridge × (Nat → UInt8)) :=
  some ((req.serve p.1).2, req.plainEffect p.1.maps p.2)

def Bridge.KeepsShadow (s : Bridge) : Except (List UInt8) (Nat × List UInt8) → Prop
  | .error _ => True
  | .ok (addr, data) =>
    ∀ i < data.length, ∀ b, s.shadow (addr + i) = some b → data.getD i 0 = b

def Bridge.SearchClear (s : Bridge) (r : SearchRequest) : Prop :=
  ∀ a, r.address ≤ a → a < r.address + (r.length + 1 - r.pattern.length) →
    (∀ c, r.address ≤ c → c < a →
      occursAt s.mem r.pattern c = false ∧ occursAt s.view r.pattern c = false) →
    occursAt s.mem r.pattern a = true ∨ occursAt s.view r.pattern a = true →
    ∀ i < r.pattern.length, s.mem (a + i) = s.view (a + i)

/-- Writes and searches stay clear of breakpoints. -/
def Harmless (p : Bridge × (Nat → UInt8)) : Request → Prop
  | .memoryWrite packet => p.1.KeepsShadow (parseMemoryWrite p.1.maps packet)
  | .binaryMemoryWrite packet => p.1.KeepsShadow (parseBinaryMemoryWrite p.1.maps packet)
  | .searchMemory packet => ∀ r, parseSearchMemory p.1.maps packet = .ok r → p.1.SearchClear r
  | _ => True

structure Overlay (s : Bridge) (plain : Nat → UInt8) : Prop where
  shadow : s.shadow = s.saved
  free : ∀ a, s.saved a = none → s.mem a = plain a
  held : ∀ a b, s.saved a = some b → plain a = b

namespace Overlay

variable {s : Bridge} {plain : Nat → UInt8}

theorem view_eq (h : Overlay s plain) : s.view = plain := by
  funext a
  rw [Bridge.view, h.shadow]
  cases ha : s.saved a with
  | none => exact h.free a ha
  | some b => exact (h.held a b ha).symm

theorem writeParsed (h : Overlay s plain) {parsed : Except (List UInt8) (Nat × List UInt8)}
    (hkeeps : s.KeepsShadow parsed) :
    Overlay (s.writeParsed parsed).2 (plainWrite plain parsed) := by
  cases parsed with
  | error reply => exact h
  | ok p =>
    obtain ⟨addr, data⟩ := p
    refine ⟨h.shadow, fun a ha => ?_, fun a b hb => ?_⟩
    · dsimp only [Bridge.writeParsed, plainWrite, store]
      rw [h.free a ha]
    · dsimp only [plainWrite, store]
      split_ifs with hin
      · have hkeep := hkeeps (a - addr) (by omega) b
        rw [Nat.add_sub_cancel' hin.1, h.shadow] at hkeep
        exact hkeep hb
      · exact h.held a b hb

theorem debugSetBreakpoint (h : Overlay s plain) (addr : Nat) (hfree : s.saved addr = none) :
    Overlay { s with
      mem := update s.mem addr 0xCC
      saved := update s.saved addr (some (s.mem addr))
      shadow := update s.shadow addr (some (s.mem addr)) } plain where
  shadow := by
    rw [h.shadow]
  free a ha := by
    dsimp only at ha ⊢
    rcases eq_or_ne a addr with rfl | hne
    · rw [update_self] at ha
      cases ha
    · rw [update_of_ne hne] at ha ⊢
      exact h.free a ha
  held a b hb := by
    dsimp only at hb
    rcases eq_or_ne a addr with rfl | hne
    · rw [update_self] at hb
      cases hb
      exact (h.free a hfree).symm
    · rw [update_of_ne hne] at hb
      exact h.held a b hb

theorem debugClearBreakpoint (h : Overlay s plain) (addr : Nat) {byte : UInt8}
    (hheld : s.saved addr = some byte) :
    Overlay { s with
      mem := update s.mem addr byte
      saved := update s.saved addr none
      shadow := update s.shadow addr none } plain where
  shadow := by
    rw [h.shadow]
  free a ha := by
    dsimp only at ha ⊢
    rcases eq_or_ne a addr with rfl | hne
    · rw [update_self]
      exact (h.held a byte hheld).symm
    · rw [update_of_ne hne] at ha ⊢
      exact h.free a ha
  held a b hb := by
    dsimp only at hb
    rcases eq_or_ne a addr with rfl | hne
    · rw [update_self] at hb
      cases hb
    · rw [update_of_ne hne] at hb
      exact h.held a b hb

theorem handleSwBreakpoint (h : Overlay s plain) (packet : List UInt8) (enable : Bool) :
    Overlay (s.handleSwBreakpoint packet enable).2 plain := by
  rw [Bridge.handleSwBreakpoint]
  split
  · exact h
  · rename_i addr _
    split_ifs
    · cases hsaved : s.saved addr with
      | none =>
        rw [Bridge.debugSetBreakpoint, hsaved]
        exact h.debugSetBreakpoint addr hsaved
      | some byte =>
        rw [Bridge.debugSetBreakpoint, hsaved]
        exact h
    · cases hsaved : s.saved addr with
      | none =>
        rw [Bridge.debugClearBreakpoint, hsaved]
        exact h
      | some byte =>
        rw [Bridge.debugClearBreakpoint, hsaved]
        exact h.debugClearBreakpoint addr hsaved

end Overlay

theorem Request.maps_serve (s : Bridge) (req : Request) : (req.serve s).2.maps = s.maps := by
  have hwrite (parsed : Except (List UInt8) (Nat × List UInt8)) :
      (s.writeParsed parsed).2.maps = s.maps := by
    cases parsed
    · rfl
    · rfl
  have hset (packet : List UInt8) (enable : Bool) :
      (s.handleSwBreakpoint packet enable).2.maps = s.maps := by
    rw [Bridge.handleSwBreakpoint]
    split
    · rfl
    · rename_i addr _
      split_ifs
      · cases hsaved : s.saved addr
        all_goals
          rw [Bridge.debugSetBreakpoint, hsaved]
      · cases hsaved : s.saved addr
        all_goals
          rw [Bridge.debugClearBreakpoint, hsaved]
  cases req with
  | memoryRead packet => rfl
  | memoryWrite packet => exact hwrite _
  | binaryMemoryWrite packet => exact hwrite _
  | searchMemory packet => rfl
  | insertBreakpoint packet => exact hset packet true
  | removeBreakpoint packet => exact hset packet false

theorem plainSearch_view {s : Bridge} {packet : List UInt8}
    (h : ∀ r, parseSearchMemory s.maps packet = .ok r → s.SearchClear r) :
    plainSearch s.maps s.mem packet = plainSearch s.maps s.view packet := by
  rw [plainSearch, plainSearch]
  split
  · rfl
  · rename_i r hr
    have hclear := h r hr
    rw [head?_hits_congr fun a hle hlt hnone => ?_]
    by_cases hoccurs : occursAt s.mem r.pattern a = true ∨ occursAt s.view r.pattern a = true
    · have hsame := hclear a hle hlt hnone hoccurs
      have hslice : slice s.mem a r.pattern.length = slice s.view a r.pattern.length := by
        rw [slice_eq_iff]
        refine ⟨length_slice .., fun i hi => ?_⟩
        rw [getD_slice _ hi]
        exact hsame i hi
      rw [occursAt, occursAt, hslice]
    · rw [not_or, Bool.not_eq_true, Bool.not_eq_true] at hoccurs
      rw [hoccurs.1, hoccurs.2]

/-- In every run whose requests stay clear of breakpoints, what is read and what is found is
that of a memory without them, and without breakpoints the memory is that one. -/
theorem plain_of_harmless_run {mem : Nat → UInt8} {maps : Option (List MapEntry)}
    {reqs : List Request} {s : Bridge} {plain : Nat → UInt8}
    (h : Run bridgeStep Harmless (⟨mem, fun _ => none, fun _ => none, maps⟩, mem) reqs (s, plain)) :
    (∀ req reply, Harmless (s, plain) req → req.plainReply maps plain = some reply →
      (req.serve s).1 = reply) ∧
      ((∀ a, s.saved a = none) → s.mem = plain) := by
  have hinv : Overlay s plain ∧ s.maps = maps := by
    refine h.invariant (P := fun p => Overlay p.1 p.2 ∧ p.1.maps = maps) ?_
      ⟨⟨rfl, fun _ _ => rfl, fun _ _ hb => nomatch hb⟩, rfl⟩
    rintro ⟨s, plain⟩ req p' ⟨hover, hmaps⟩ hguard ⟨⟩
    refine ⟨?_, (req.maps_serve s).trans hmaps⟩
    cases req with
    | memoryRead packet => exact hover
    | memoryWrite packet => exact hover.writeParsed hguard
    | binaryMemoryWrite packet => exact hover.writeParsed hguard
    | searchMemory packet => exact hover
    | insertBreakpoint packet => exact hover.handleSwBreakpoint packet true
    | removeBreakpoint packet => exact hover.handleSwBreakpoint packet false
  obtain ⟨hover, rfl⟩ := hinv
  refine ⟨fun req reply hguard hreply => ?_, fun hnone => funext fun a => hover.free a (hnone a)⟩
  rw [← hover.view_eq] at hreply
  cases req with
  | memoryRead packet =>
    cases hreply
    exact s.handleMemoryRead_eq packet
  | searchMemory packet =>
    cases hreply
    exact (handleSearchMemory_eq s packet).trans (plainSearch_view hguard)
  | memoryWrite packet => cases hreply
  | binaryMemoryWrite packet => cases hreply
  | insertBreakpoint packet => cases hreply
  | removeBreakpoint packet => cases hreply

def zeros : Nat → UInt8 := fun _ => 0

def insertPacket : List UInt8 := [90, 48, 44, 49, 48, 44, 49]

def readPacket : List UInt8 := [109, 49, 48, 44, 49]

def writePacket : List UInt8 := [77, 49, 48, 44, 49, 58, 57, 48]

theorem plain_of_harmless_run_insert :
    (Request.serve (Request.serve ⟨zeros, fun _ => none, fun _ => none, none⟩
      (.insertBreakpoint insertPacket)).2 (.memoryRead readPacket)).1 = [48, 48] := by
  have hrun : Run bridgeStep Harmless (⟨zeros, fun _ => none, fun _ => none, none⟩, zeros)
      [.insertBreakpoint insertPacket] _ := .cons trivial rfl (.nil _)
  exact (plain_of_harmless_run hrun).1 (.memoryRead readPacket) _ trivial (by decide)

theorem memoryRead_stale :
    ¬ ∀ reqs s plain,
      Run bridgeStep (fun _ _ => True) (⟨zeros, fun _ => none, fun _ => none, none⟩, zeros) reqs
        (s, plain) →
      ∀ req reply, Request.plainReply none plain req = some reply →
        (Request.serve s req).1 = reply := by
  intro hall
  have hrun : Run bridgeStep (fun _ _ => True)
      (⟨zeros, fun _ => none, fun _ => none, none⟩, zeros)
      [.insertBreakpoint insertPacket, .memoryWrite writePacket] _ :=
    .cons trivial rfl (.cons trivial rfl (.nil _))
  have hread := hall _ _ _ hrun (.memoryRead readPacket) _ rfl
  rw [Request.serve, Bridge.handleMemoryRead_eq] at hread
  revert hread
  decide

end MemDbg.Gdb
