import MemDbg.Daemon.DebugHandlers
import MemDbg.Daemon.MemoryHandlers
import MemDbg.Frontend.Client
import MemDbg.Util.Lz4Decode

/-!
# Framed payloads

Four handlers frame what they send: a marker and the bytes, or a marker, the length and an
LZ4 block.  Which of the two depends on the size, on what the compressor makes of the bytes
and on two allocations, so an operation of the client that is answered with a frame has to
undo it whatever it looks like.
-/

namespace MemDbg.Frontend

open List Lib Util Daemon.Wire Daemon.Dispatch

/-! ## The client -/

def announced (response : List UInt8) : Nat := leNat ((response.drop 1).take 4)

def decompressBlock (old response : List UInt8) : Option (List UInt8) :=
  let uncompLen := announced response
  let r := lz4DecompressSafe (atZero (response.drop 5)) (atZero old)
    (toInt32 (wrap32 (response.length - 5))) (toInt32 uncompLen)
  if r.1 ≠ toInt32 uncompLen then none else some (slice r.2 0 uncompLen)

def maybeDecompress (old response : List UInt8) : Option (List UInt8) :=
  match response.head? with
  | none => some []
  | some marker =>
    if marker = 0x00 then some (response.drop 1)
    else if marker = 0x01 ∧ 5 ≤ response.length then decompressBlock old response
    else some response

theorem maybeDecompress_block {old response : List UInt8} (hhead : response.head? = some 0x01)
    (hlen : 5 ≤ response.length) :
    maybeDecompress old response = decompressBlock old response := by
  rw [maybeDecompress, hhead]
  dsimp only
  rw [if_neg (by decide), if_pos ⟨rfl, hlen⟩]

def received (limit : Nat) (f : Frame) : Option (List UInt8) :=
  if f.status ≠ .ok ∨ f.length > limit then none else some (f.payload.take f.length)

inductive Operation where
  | memoryRead
  | processMaps
  | batchRead (results : List UInt8)
  | processDump

namespace Operation

def results : Operation → List UInt8
  | batchRead results => results
  | _ => []

def limit : Operation → Nat
  | processMaps => maxResponseForCommand cmdProcessMapsV2
  | _ => maxPacket + 1024 * 1024

def deliver (op : Operation) (old : List UInt8) (f : Frame) : Option (List UInt8) :=
  (received op.limit f).bind fun response =>
    match op with
    | memoryRead => maybeDecompress old response
    | processMaps => maybeDecompress old response
    | batchRead results =>
      if response.length < results.length then none
      else maybeDecompress old (response.drop results.length)
    | processDump => some response

def reply (op : Operation) (compress : List UInt8 → List UInt8) (malloc : Nat → Bool)
    (req : Daemon.Request) (data : List UInt8) : Reply :=
  match op with
  | memoryRead => sendFramedResponse compress (malloc 0) req .ok data
  | processMaps => sendFramedResponse compress (malloc 0) req .ok data
  | batchRead results =>
    match buildFramedPayload compress (malloc 0) (malloc 1) data with
    | none => fail .errNomem
    | some framed =>
      if malloc 2 = false then fail .errNomem else sendResponse req .ok (results ++ framed)
  | processDump =>
    sendResponse req .ok ((buildFramedPayload compress (malloc 0) (malloc 1) data).getD data)

end Operation

/-! ## An exchange -/

structure Exchange where
  op : Operation
  req : Daemon.Request
  data : List UInt8
  table : HashTable
  scratch : Nat → UInt8
  malloc : Nat → Bool
  old : List UInt8
  data_lt : data.length < 2 ^ 32
  results_le : op.results.length ≤ 64 * 16

namespace Exchange

variable (x : Exchange)

def block : List UInt8 := lz4Block x.table x.scratch x.data

def reply : Reply := x.op.reply (lz4Block x.table x.scratch) x.malloc x.req x.data

/-- What the client delivers is the data, unless there are more bytes than it takes. -/
def Survives : Prop :=
  ∀ f, x.reply.frames = [f] → x.op.deliver x.old f = some x.data ∨
    (x.op.deliver x.old f = none ∧ x.op.limit ≤ x.op.results.length + x.data.length)

def Compressed : Prop :=
  lz4Threshold ≤ x.data.length ∧ x.data.length ≤ intMax ∧ x.malloc 0 = true ∧
    worthwhile x.data.length x.block = true

instance : Decidable x.Compressed := inferInstanceAs (Decidable (_ ∧ _ ∧ _ ∧ _))

def frame : List UInt8 :=
  if x.Compressed then compressedPayload x.data.length x.block
  else (0x00 :: x.data).take (wrap32 (x.data.length + 1))

/-- The dump is sent as it is, or the client does not take it; the length of other data does
not wrap. -/
def Sound : Prop :=
  match x.op with
  | .memoryRead => x.data.length ≠ 2 ^ 32 - 1
  | .processMaps => x.data.length ≠ 2 ^ 32 - 1
  | .batchRead _ => x.malloc 1 = true → x.malloc 2 = true → x.data.length ≠ 2 ^ 32 - 1
  | .processDump => x.Compressed ∨ x.malloc 1 = true → x.op.limit < x.frame.length

/-! ### The frame -/

variable {x}

theorem length_compressedPayload (n : Nat) (block : List UInt8) :
    (compressedPayload n block).length = block.length + 5 := by
  rw [compressedPayload, length_cons, length_append, length_leBytes, Nat.add_comm 4]

theorem Compressed.block_length (h : x.Compressed) :
    0 < x.block.length ∧ x.block.length + 5 < x.data.length := by
  obtain ⟨hlow, -, -, hworth⟩ := h
  rw [worthwhile, Bool.and_eq_true, decide_eq_true_eq, decide_eq_true_eq] at hworth
  rw [lz4Threshold] at hlow
  omega

theorem length_frame :
    x.frame.length = if x.Compressed then x.block.length + 5 else wrap32 (x.data.length + 1) := by
  rw [frame]
  split
  · exact length_compressedPayload _ _
  · rw [length_take, length_cons]
    exact Nat.min_eq_left (Nat.mod_le _ _)

theorem length_frame_le : x.frame.length ≤ x.data.length + 1 ∧ x.frame.length < 2 ^ 32 := by
  have hdata := x.data_lt
  rw [length_frame]
  split
  next hc =>
    have := hc.block_length
    omega
  next => exact ⟨Nat.mod_le _ _, Nat.mod_lt _ (by decide)⟩

theorem frame_eq_nil (h : x.data.length = 2 ^ 32 - 1) : x.frame = [] := by
  rw [frame, if_neg, h]
  · rfl
  · rintro ⟨-, hmax, -⟩
    rw [h] at hmax
    exact absurd hmax (by decide)

theorem length_frame_ne : x.frame.length ≠ x.data.length := by
  rw [length_frame]
  split
  next hc => exact Nat.ne_of_lt hc.block_length.2
  next =>
    rw [wrap32]
    omega

theorem wrap32_data : wrap32 x.data.length = x.data.length := wrap32_of_lt x.data_lt

theorem compressed_iff :
    ¬(x.data.length < lz4Threshold ∨ intMax < x.data.length) ∧ (x.malloc 0 = true ∧
        worthwhile x.data.length (lz4Block x.table x.scratch x.data) = true) ↔ x.Compressed := by
  rw [not_or, Nat.not_lt, Nat.not_lt, and_assoc]
  rfl

theorem ite_or_ite {α : Sort _} {p q : Prop} [Decidable p] [Decidable q] (a b : α) :
    (if p then a else if q then b else a) = if ¬p ∧ q then b else a := by
  by_cases hp : p
  · rw [if_pos hp, if_neg fun h => h.1 hp]
  · rw [if_neg hp]
    exact if_congr (iff_and_self.mpr fun _ => hp) rfl rfl

theorem sendFramedResponse_eq :
    ∃ payload, sendFramedResponse (lz4Block x.table x.scratch) (x.malloc 0) x.req .ok x.data =
        ⟨[⟨x.req.command, x.req.requestId, .ok, x.frame.length, payload⟩], .ok⟩ ∧
      payload.take x.frame.length = x.frame := by
  rw [sendFramedResponse]
  rw [wrap32_data, take_length, ite_or_ite, if_congr compressed_iff rfl rfl, length_frame, frame]
  by_cases hc : x.Compressed
  · rw [if_pos hc, if_pos hc, if_pos hc]
    exact ⟨_, rfl, take_of_length_le (Nat.le_of_eq (length_compressedPayload _ _))⟩
  · rw [if_neg hc, if_neg hc, if_neg hc]
    exact ⟨_, rfl, rfl⟩

theorem buildFramedPayload_eq :
    buildFramedPayload (lz4Block x.table x.scratch) (x.malloc 0) (x.malloc 1) x.data =
      if x.Compressed ∨ x.malloc 1 = true then some x.frame else none := by
  rw [buildFramedPayload, wrap32_data, take_length, ite_or_ite, if_congr compressed_iff rfl rfl,
    frame]
  by_cases hc : x.Compressed
  · rw [if_pos hc, if_pos (.inl hc), if_pos hc]
    rfl
  · rw [if_neg hc, if_neg hc]
    exact if_congr (or_iff_right hc).symm rfl rfl

theorem Compressed.maybeDecompress_eq (h : x.Compressed) (old : List UInt8) :
    maybeDecompress old (compressedPayload x.data.length x.block) = some x.data := by
  obtain ⟨hpos, hle⟩ := h.block_length
  have hmax := h.2.1
  rw [intMax] at hmax
  have hlen := length_compressedPayload x.data.length x.block
  have hannounced : announced (compressedPayload x.data.length x.block) = x.data.length := by
    have htake : (leBytes 4 x.data.length ++ x.block).take 4 = leBytes 4 x.data.length :=
      take_left' (length_leBytes _ _)
    rw [announced, compressedPayload, drop_one, tail_cons, htake, leNat_leBytes]
    exact Nat.mod_eq_of_lt x.data_lt
  have hdrop : (compressedPayload x.data.length x.block).drop 5 = x.block :=
    drop_left' (length_leBytes _ _)
  have hsize : toInt32 (wrap32 (x.block.length + 5 - 5)) = x.block.length := by
    rw [Nat.add_sub_cancel, wrap32_of_lt (by omega), toInt32, if_pos (by omega)]
  have hlimit : toInt32 x.data.length = x.data.length := by
    rw [toInt32, if_pos (by omega)]
  have hdecodes : Decodes [] (slice (atZero x.block) 0 x.block.length) x.data := by
    rw [slice_atZero]
    exact decodes_lz4Block hpos
  obtain ⟨out, hrun, hout⟩ := lz4DecompressSafe_complete (atZero old) hdecodes (Int.le_refl _)
    (by omega)
  rw [maybeDecompress_block rfl (hlen.symm ▸ Nat.le_add_left 5 _), decompressBlock, hannounced,
    hdrop, hlen, hsize, hlimit, hrun]
  rw [if_neg (not_not.mpr rfl), hout]

theorem maybeDecompress_frame (old : List UInt8) :
    maybeDecompress old x.frame = if x.data.length = 2 ^ 32 - 1 then some [] else some x.data := by
  split
  next hlen =>
    rw [frame_eq_nil hlen]
    rfl
  next hlen =>
    have hdata := x.data_lt
    rw [frame]
    split
    next hc => exact hc.maybeDecompress_eq old
    next =>
      have hwrap : wrap32 (x.data.length + 1) = x.data.length + 1 := wrap32_of_lt (by omega)
      rw [hwrap, take_of_length_le (Nat.le_of_eq length_cons)]
      rfl

/-! ### Delivery -/

theorem received_mk {command : Daemon.Command} {id : UInt32} {n limit : Nat}
    (payload : List UInt8) :
    received limit ⟨command, id, .ok, n, payload⟩ =
      if n > limit then none else some (payload.take n) :=
  if_congr (or_iff_right fun h => h rfl) rfl rfl

theorem survives_iff_of_frames {f : Frame} (h : x.reply.frames = [f]) :
    x.Survives ↔ x.op.deliver x.old f = some x.data ∨
      (x.op.deliver x.old f = none ∧ x.op.limit ≤ x.op.results.length + x.data.length) :=
  ⟨fun hs => hs f h, fun hs _ h' => singleton_inj.mp (h.symm.trans h') ▸ hs⟩

theorem frame_delivered_iff (old : List UInt8) {limit k : Nat} (hk : k ≤ limit) :
    (if k + x.frame.length > limit then none else maybeDecompress old x.frame) = some x.data ∨
        ((if k + x.frame.length > limit then none else maybeDecompress old x.frame) = none ∧
          limit ≤ k + x.data.length) ↔ x.data.length ≠ 2 ^ 32 - 1 := by
  rw [maybeDecompress_frame]
  constructor
  · intro h hlen
    have hfits : ¬k + ([] : List UInt8).length > limit := Nat.not_lt.mpr hk
    rw [frame_eq_nil hlen, if_neg hfits, if_pos hlen] at h
    rcases h with h | ⟨h, -⟩
    · rw [← Option.some.inj h] at hlen
      exact absurd hlen (by decide)
    · cases h
  · intro hlen
    rw [if_neg hlen]
    split
    next hlong =>
      refine .inr ⟨rfl, ?_⟩
      have := x.length_frame_le.1
      omega
    next => exact .inl rfl

theorem operation_limit (op : Operation) : 64 * 16 ≤ op.limit ∧ op.limit ≤ maxMapResponse := by
  cases op with
  | processMaps => decide
  | memoryRead => decide
  | batchRead results =>
    exact (by decide : 64 * 16 ≤ maxPacket + 1024 * 1024 ∧ maxPacket + 1024 * 1024 ≤ maxMapResponse)
  | processDump => decide

theorem survives_iff_of_sendFramedResponse (hreply : x.reply =
      sendFramedResponse (lz4Block x.table x.scratch) (x.malloc 0) x.req .ok x.data)
    (hdeliver : ∀ f, x.op.deliver x.old f = (received x.op.limit f).bind (maybeDecompress x.old))
    (hresults : x.op.results = []) :
    x.Survives ↔ x.data.length ≠ 2 ^ 32 - 1 := by
  obtain ⟨payload, hsend, htake⟩ := x.sendFramedResponse_eq
  have hframes : x.reply.frames =
      [⟨x.req.command, x.req.requestId, .ok, x.frame.length, payload⟩] := by rw [hreply, hsend]
  have hdelivered := x.frame_delivered_iff x.old (Nat.zero_le x.op.limit)
  rw [Nat.zero_add, Nat.zero_add] at hdelivered
  rw [survives_iff_of_frames hframes, hdeliver, received_mk, htake, hresults, length_nil,
    Nat.zero_add, ← hdelivered]
  split
  next => rfl
  next => rfl

theorem survives_iff_of_results {results : List UInt8} (hop : x.op = .batchRead results)
    (hreply : x.reply = sendResponse x.req .ok (results ++ x.frame)) :
    x.Survives ↔ x.data.length ≠ 2 ^ 32 - 1 := by
  have hlimit := operation_limit x.op
  have hresults := x.results_le
  have hframe := x.length_frame_le
  rw [hop] at hresults
  have hframes : x.reply.frames = [⟨x.req.command, x.req.requestId, .ok,
      wrap32 (results ++ x.frame).length,
      (results ++ x.frame).take (wrap32 (results ++ x.frame).length)⟩] := by
    rw [hreply]
    rfl
  have hdeliver : ∀ f, x.op.deliver x.old f = (received x.op.limit f).bind fun response =>
      if response.length < results.length then none
      else maybeDecompress x.old (response.drop results.length) := fun f => by
    rw [hop]
    rfl
  have hlen : x.op.results.length = results.length := by rw [hop]; rfl
  rw [survives_iff_of_frames hframes, hdeliver, received_mk, take_take, Nat.min_self, hlen,
    length_append]
  change results.length ≤ _ at hresults
  rcases Nat.lt_or_ge (results.length + x.frame.length) (2 ^ 32) with hlt | hge
  · rw [wrap32_of_lt hlt, take_of_length_le (Nat.le_of_eq length_append),
      ← frame_delivered_iff x.old (Nat.le_trans hresults hlimit.1)]
    split
    next => rfl
    next =>
      rw [Option.bind_some, length_append, if_neg (Nat.not_lt.mpr (Nat.le_add_right _ _)),
        drop_left]
  · -- the length wraps and ends inside the results
    have hwrap : wrap32 (results.length + x.frame.length) < results.length := by
      rw [wrap32]
      omega
    have hne : x.data.length ≠ 2 ^ 32 - 1 := fun h => by
      rw [frame_eq_nil h, length_nil] at hge
      omega
    refine iff_of_true (.inr ⟨?_, ?_⟩) hne
    · split
      next => rfl
      next =>
        have hshort : ((results ++ x.frame).take
            (wrap32 (results.length + x.frame.length))).length < results.length :=
          Nat.lt_of_le_of_lt (length_take_le _ _) hwrap
        rw [Option.bind_some, if_pos hshort]
    · have hmax := hlimit.2
      rw [maxMapResponse] at hmax
      omega

theorem survives_iff_of_batchRead {results : List UInt8} (hop : x.op = .batchRead results) :
    x.Survives ↔ x.Sound := by
  have hbuild := x.buildFramedPayload_eq
  have hsound : x.Sound ↔ (x.malloc 1 = true → x.malloc 2 = true → x.data.length ≠ 2 ^ 32 - 1) := by
    rw [Sound, hop]
  have hreply : x.reply = match buildFramedPayload (lz4Block x.table x.scratch) (x.malloc 0)
      (x.malloc 1) x.data with
    | none => fail .errNomem
    | some framed =>
      if x.malloc 2 = false then fail .errNomem
      else sendResponse x.req .ok (results ++ framed) := by
    rw [reply, hop]
    rfl
  rw [hsound]
  rw [hbuild] at hreply
  by_cases hsent : x.Compressed ∨ x.malloc 1 = true
  · rw [if_pos hsent] at hreply
    dsimp only at hreply
    by_cases hmalloc : x.malloc 2 = true
    · rw [if_neg (by rw [hmalloc]; exact Bool.noConfusion)] at hreply
      rw [survives_iff_of_results hop hreply]
      constructor
      · exact fun h _ _ => h
      · intro h
        rcases hsent with hc | hraw
        · intro hlen
          have := hc.2.1
          rw [hlen] at this
          exact absurd this (by decide)
        · exact h hraw hmalloc
    · rw [if_pos (Bool.eq_false_iff.mpr hmalloc)] at hreply
      refine iff_of_true (fun f hf => ?_) fun _ h => absurd h hmalloc
      rw [hreply] at hf
      cases hf
  · rw [if_neg hsent] at hreply
    refine iff_of_true (fun f hf => ?_) fun h => absurd (.inr h) hsent
    rw [hreply] at hf
    cases hf

theorem survives_iff_of_processDump (hop : x.op = .processDump) : x.Survives ↔ x.Sound := by
  have hbuild := x.buildFramedPayload_eq
  have hsound : x.Sound ↔ (x.Compressed ∨ x.malloc 1 = true → x.op.limit < x.frame.length) := by
    rw [Sound, hop]
  have hsend : ∀ {payload : List UInt8}, payload.length < 2 ^ 32 →
      x.reply = sendResponse x.req .ok payload →
      (x.Survives ↔ (if payload.length > x.op.limit then none else some payload) = some x.data ∨
        ((if payload.length > x.op.limit then none else some payload) = none ∧
          x.op.limit ≤ x.data.length)) := by
    intro payload hlt hreply
    have hframes : x.reply.frames = [⟨x.req.command, x.req.requestId, .ok, wrap32 payload.length,
        payload.take (wrap32 payload.length)⟩] := by
      rw [hreply]
      rfl
    have hdeliver : ∀ f, x.op.deliver x.old f = (received x.op.limit f).bind some := fun f => by
      rw [hop]
      rfl
    have hlen : x.op.results.length = 0 := by rw [hop]; rfl
    rw [survives_iff_of_frames hframes, hdeliver, received_mk, take_take, Nat.min_self,
      wrap32_of_lt hlt, take_length, Option.bind_fun_some, hlen, Nat.zero_add]
  have hreply : x.reply = sendResponse x.req .ok ((buildFramedPayload (lz4Block x.table x.scratch)
      (x.malloc 0) (x.malloc 1) x.data).getD x.data) := by
    rw [reply, hop]
    rfl
  rw [hbuild] at hreply
  rw [hsound]
  by_cases hsent : x.Compressed ∨ x.malloc 1 = true
  · rw [if_pos hsent] at hreply
    rw [hsend x.length_frame_le.2 hreply]
    constructor
    · intro h _
      by_contra hfits
      rw [if_neg hfits] at h
      rcases h with h | ⟨h, -⟩
      · exact x.length_frame_ne (congrArg List.length (Option.some.inj h))
      · cases h
    · intro h
      have hlong := h hsent
      rw [if_pos hlong]
      have := x.length_frame_le.1
      exact .inr ⟨rfl, by omega⟩
  · rw [if_neg hsent] at hreply
    rw [hsend x.data_lt hreply]
    refine iff_of_true ?_ fun h => absurd h hsent
    split
    next hlong => exact .inr ⟨rfl, Nat.le_of_lt hlong⟩
    next => exact .inl rfl

theorem survives_iff (x : Exchange) : x.Survives ↔ x.Sound := by
  cases hop : x.op with
  | memoryRead =>
    have hsound : x.Sound ↔ x.data.length ≠ 2 ^ 32 - 1 := by rw [Sound, hop]
    rw [hsound]
    refine survives_iff_of_sendFramedResponse ?_ (fun f => ?_) (by rw [hop]; rfl)
    · rw [reply, hop]
      rfl
    · rw [hop]
      rfl
  | processMaps =>
    have hsound : x.Sound ↔ x.data.length ≠ 2 ^ 32 - 1 := by rw [Sound, hop]
    rw [hsound]
    refine survives_iff_of_sendFramedResponse ?_ (fun f => ?_) (by rw [hop]; rfl)
    · rw [reply, hop]
      rfl
    · rw [hop]
      rfl
  | batchRead results => exact survives_iff_of_batchRead hop
  | processDump => exact survives_iff_of_processDump hop

end Exchange

/-! ## Any response -/

/-- The response announces a length, and what is taken from it is what its block decodes to and
as long as that. -/
def Announced (response out : List UInt8) : Prop :=
  5 ≤ response.length ∧ out.length = announced response ∧ Decodes [] (response.drop 5) out

theorem announced_of_decompressBlock {old response out : List UInt8}
    (hmax : response.length ≤ maxMapResponse) (hlen : 5 ≤ response.length)
    (hcode : announced response ≠ 2 ^ 32 - 1) (h : decompressBlock old response = some out) :
    Announced response out := by
  rw [maxMapResponse] at hmax
  have hsize : toInt32 (wrap32 (response.length - 5)) = (response.drop 5).length := by
    rw [length_drop, wrap32_of_lt (by omega), toInt32, if_pos (by omega)]
  have hlt : announced response < 2 ^ 32 := by
    have := leNat_lt ((response.drop 1).take 4)
    exact Nat.lt_of_lt_of_le this (Nat.pow_le_pow_right (by decide) (length_take_le _ _))
  rw [decompressBlock, hsize] at h
  split at h
  · cases h
  · rename_i hdec
    rw [not_not] at hdec
    cases h
    have hdrop : (response.drop 5).length + 5 = response.length := by
      rw [length_drop]
      omega
    have hwrap : 255 * ((response.drop 5).length : Int) + 19 < 2 ^ 32 := by omega
    have hnonneg : 0 ≤ toInt32 (announced response) := by
      -- a negative capacity is refused with -1, which is another number
      by_contra hneg
      rw [lz4DecompressSafe_of_neg (Int.not_le.mp hneg)] at hdec
      rw [toInt32] at hdec hneg
      split at hdec
      · omega
      · dsimp only at hdec
        omega
    obtain ⟨-, final, hdecodes, hr, -, hout⟩ :=
      lz4DecompressSafe_sound hwrap (Prod.mk.eta (p := lz4DecompressSafe _ _ _ _)).symm
        (hdec ▸ hnonneg)
    rw [hdec, toInt32] at hr
    have hfinal : final.length = announced response := by
      split at hr
      · exact_mod_cast hr.symm
      · rw [toInt32] at hnonneg
        omega
    rw [Int.toNat_natCast, slice_atZero] at hdecodes
    rw [hfinal] at hout
    rw [Announced, length_slice, hout]
    exact ⟨hlen, rfl, hdecodes⟩

theorem announced_iff {old response : List UInt8} (hmax : response.length ≤ maxMapResponse)
    (hhead : response.head? = some 0x01) :
    (∀ out, maybeDecompress old response = some out → Announced response out) ↔
      5 ≤ response.length ∧ announced response ≠ 2 ^ 32 - 1 := by
  rcases Nat.lt_or_ge response.length 5 with hshort | hlen
  · refine iff_of_false (fun h => ?_) fun h => absurd h.1 (Nat.not_le.mpr hshort)
    have hraw : maybeDecompress old response = some response := by
      rw [maybeDecompress, hhead]
      dsimp only
      rw [if_neg (by decide), if_neg fun h => Nat.not_le.mpr hshort h.2]
    exact absurd (h response hraw).1 (Nat.not_le.mpr hshort)
  · rw [maybeDecompress_block hhead hlen]
    constructor
    · intro h
      refine ⟨hlen, fun hcode => ?_⟩
      have hneg : toInt32 (announced response) = -1 := by
        rw [hcode]
        decide
      have htaken : ∃ out, decompressBlock old response = some out := by
        rw [decompressBlock, hneg, lz4DecompressSafe_of_neg (by decide)]
        exact ⟨_, if_neg (not_not.mpr rfl)⟩
      obtain ⟨out, htaken⟩ := htaken
      -- so many bytes do not come out of so short a block
      obtain ⟨-, hout, hdecodes⟩ := h out htaken
      have hbound := hdecodes.length_le_mul
      rw [hout, hcode, length_nil, length_drop] at hbound
      rw [maxMapResponse] at hmax
      omega
    · exact fun h out hout => announced_of_decompressBlock hmax hlen h.2 hout

/-- Framed payloads survive in just the sound exchanges, and a response with a block is taken for
what it announces just where it announces anything but the error code. -/
theorem survives_iff_and_announced_iff (x : Exchange) (old : List UInt8) {response : List UInt8}
    (hmax : response.length ≤ maxMapResponse) (hhead : response.head? = some 0x01) :
    (x.Survives ↔ x.Sound) ∧
      ((∀ out, maybeDecompress old response = some out → Announced response out) ↔
        5 ≤ response.length ∧ announced response ≠ 2 ^ 32 - 1) :=
  ⟨x.survives_iff, announced_iff hmax hhead⟩

def smallDump : Exchange where
  op := .processDump
  req := ⟨.processDump, 1, []⟩
  data := [0x7b, 0x7d]
  table := ⟨fun _ => 0, 0⟩
  scratch _ := 0
  malloc _ := true
  old := []
  data_lt := by decide
  results_le := by decide

theorem smallDump_not_survives : ¬smallDump.Survives := fun h => by
  have hframes : smallDump.reply.frames =
      [⟨.processDump, 1, .ok, 3, [0x00, 0x7b, 0x7d]⟩] := by decide
  have := h _ hframes
  revert this
  decide

theorem survives_iff_and_announced_iff_marker :
    (smallDump.Survives ↔ smallDump.Sound) ∧
      ((∀ out, maybeDecompress [] [0x01] = some out → Announced [0x01] out) ↔
        5 ≤ [(0x01 : UInt8)].length ∧ announced [0x01] ≠ 2 ^ 32 - 1) :=
  survives_iff_and_announced_iff smallDump [] (by decide) rfl

end MemDbg.Frontend
