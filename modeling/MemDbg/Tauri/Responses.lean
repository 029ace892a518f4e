import MemDbg.Frontend.Framed
import MemDbg.Tauri.Client
import MemDbg.Tauri.Framer

/-!
# Framed payloads in the desktop application

The daemon compresses a payload in C, and the bridge hands its bytes on in chunks to a client
that looks for responses and undoes the framing in TypeScript.  Whatever the daemon decided and
wherever the bytes are cut, the client settles the requests with the data they asked for
(`responses_delivered`).
-/

namespace MemDbg.Tauri

open List Lib Util Frontend Daemon.Wire Daemon.Dispatch

/-! ## What the daemon sends -/

def commandCode : Operation → Nat
  | .memoryRead => 0x0200
  | .batchRead _ => 0x0202
  | .processMaps => 0x0110
  | .processDump => 0x010F

def responseBytes (code : Nat) (f : Daemon.Wire.Frame) : List UInt8 :=
  leBytes 4 Frontend.packetMagic ++ (leBytes 2 Frontend.protocolVersion ++ (leBytes 2 code ++
    (leBytes 4 f.requestId.toNat ++ (leBytes 4 (statusCode f.status) ++
      (leBytes 4 f.length ++ f.payload)))))

def exchangeBytes (x : Exchange) : List UInt8 :=
  x.reply.frames.flatMap (responseBytes (commandCode x.op))

/-- The whole payload is a frame, and its length does not wrap.  The payload of a batch read
begins with its results, and that of a dump is not framed when memory is short. -/
def Framed (x : Exchange) : Prop :=
  x.data.length ≠ 2 ^ 32 - 1 ∧
    match x.op with
    | .memoryRead => True
    | .processMaps => True
    | .batchRead _ => False
    | .processDump => x.Compressed ∨ x.malloc 1 = true

section Exchange

variable {x : Exchange}

theorem sendFramedResponse_frame (hlen : x.data.length ≠ 2 ^ 32 - 1) :
    sendFramedResponse (lz4Block x.table x.scratch) (x.malloc 0) x.req .ok x.data =
      ⟨[⟨x.req.command, x.req.requestId, .ok, x.frame.length, x.frame⟩], .ok⟩ := by
  have hdata := x.data_lt
  have hwrap : wrap32 (x.data.length + 1) = x.data.length + 1 := wrap32_of_lt (by omega)
  rw [sendFramedResponse]
  rw [Exchange.wrap32_data, take_length, Exchange.ite_or_ite,
    if_congr Exchange.compressed_iff rfl rfl, Exchange.length_frame, Exchange.frame]
  by_cases hc : x.Compressed
  · rw [if_pos hc, if_pos hc, if_pos hc]
    rfl
  · rw [if_neg hc, if_neg hc, if_neg hc, hwrap,
      take_of_length_le (Nat.le_of_eq length_cons)]

theorem reply_of_framed (h : Framed x) :
    x.reply = ⟨[⟨x.req.command, x.req.requestId, .ok, x.frame.length, x.frame⟩], .ok⟩ := by
  obtain ⟨hlen, hop⟩ := h
  rw [Exchange.reply]
  cases hx : x.op with
  | memoryRead => exact sendFramedResponse_frame hlen
  | processMaps => exact sendFramedResponse_frame hlen
  | batchRead results =>
    rw [hx] at hop
    exact hop.elim
  | processDump =>
    rw [hx] at hop
    have hwrap : wrap32 x.frame.length = x.frame.length :=
      wrap32_of_lt Exchange.length_frame_le.2
    rw [Operation.reply, Exchange.buildFramedPayload_eq, if_pos hop, Option.getD_some,
      sendResponse, hwrap, take_length]

theorem unwrapCompressed_frame (hlen : x.data.length ≠ 2 ^ 32 - 1) :
    unwrapCompressed x.frame = .ok x.data := by
  have hdata := x.data_lt
  by_cases hc : x.Compressed
  · obtain ⟨hpos, -⟩ := hc.block_length
    have hshort : ¬(compressedPayload x.data.length x.block).length < 5 := by
      rw [Exchange.length_compressedPayload]
      omega
    have htake : (leBytes 4 x.data.length ++ x.block).take 4 = leBytes 4 x.data.length :=
      take_left' (length_leBytes _ _)
    have hdrop : (compressedPayload x.data.length x.block).drop 5 = x.block :=
      drop_left' (length_leBytes _ _)
    rw [Exchange.frame, if_pos hc, compressedPayload, unwrapCompressed]
    have hsize : x.data.length % 256 ^ 4 = x.data.length := Nat.mod_eq_of_lt hdata
    rw [← compressedPayload, if_neg (by decide), if_pos rfl, if_neg hshort, hdrop, htake,
      leNat_leBytes, hsize]
    exact lz4Decompress_decodes (decodes_lz4Block hpos)
  · have hwrap : wrap32 (x.data.length + 1) = x.data.length + 1 := wrap32_of_lt (by omega)
    rw [Exchange.frame, if_neg hc, hwrap, take_of_length_le (Nat.le_of_eq length_cons)]
    rfl

end Exchange

/-! ## What the client receives -/

/-- The client settles the request of the exchange with its data. -/
def Delivers (f : Frame) (x : Exchange) : Prop :=
  f.header.requestId = x.req.requestId.toNat ∧ deliver f = .resolved f x.data

theorem decodeResponseHeader_responseBytes {code : Nat} {f : Daemon.Wire.Frame}
    (hcode : code < 256 ^ 2) (hstatus : f.status = .ok) (hlen : f.length < 256 ^ 4) :
    decodeResponseHeader (responseBytes code f) =
      ⟨mdbgMagic, Frontend.protocolVersion, code, f.requestId.toNat, 0, f.length⟩ := by
  have hid : f.requestId.toNat < 256 ^ 4 := f.requestId.toNat_lt
  have hfields : decodeResponseHeader (responseBytes code f) =
      ⟨leNat (leBytes 4 Frontend.packetMagic), leNat (leBytes 2 Frontend.protocolVersion),
        leNat (leBytes 2 code), leNat (leBytes 4 f.requestId.toNat),
        int32 (leNat (leBytes 4 (statusCode f.status))), leNat (leBytes 4 f.length)⟩ := rfl
  rw [hfields, hstatus]
  simp only [leNat_leBytes]
  rw [Nat.mod_eq_of_lt hcode, Nat.mod_eq_of_lt hid, Nat.mod_eq_of_lt hlen]
  rfl

theorem length_responseBytes (code : Nat) (f : Daemon.Wire.Frame) :
    (responseBytes code f).length = responseHeaderSize + f.payload.length := by
  simp only [responseBytes, length_append, length_leBytes, responseHeaderSize]
  omega

theorem commandCode_framed (op : Operation) :
    commandCode op ∈ framedResponseCommands ∧ commandCode op < 256 ^ 2 := by
  cases op with
  | memoryRead => decide
  | processMaps => decide
  | batchRead results =>
    rw [commandCode]
    decide
  | processDump => decide

theorem delivers_of_octets {x : Exchange} (h : Framed x) {os : List Octet}
    (hos : os.map Octet.byte = exchangeBytes x) :
    Frame.Valid ⟨headerAt os, os⟩ ∧ Delivers ⟨headerAt os, os⟩ x := by
  obtain ⟨hframed, hcode⟩ := commandCode_framed x.op
  have hbytes : os.map Octet.byte = responseBytes (commandCode x.op)
      ⟨x.req.command, x.req.requestId, .ok, x.frame.length, x.frame⟩ := by
    rw [hos, exchangeBytes, reply_of_framed h]
    exact append_nil _
  have hheader : headerAt os = ⟨mdbgMagic, Frontend.protocolVersion, commandCode x.op,
      x.req.requestId.toNat, 0, x.frame.length⟩ := by
    rw [headerAt, hbytes]
    exact decodeResponseHeader_responseBytes hcode rfl Exchange.length_frame_le.2
  have hlen : os.length = responseHeaderSize + x.frame.length := by
    rw [← os.length_map Octet.byte, hbytes, length_responseBytes]
  have hmagic : MagicAt os 0 := by
    have hsize : responseHeaderSize = 20 := rfl
    refine (magic_headerAt (by omega)).mp ?_
    rw [hheader]
  have hbody : Frame.body ⟨headerAt os, os⟩ = x.frame := by
    rw [Frame.body, map_drop, hbytes]
    rfl
  refine ⟨⟨rfl, hmagic, ?_⟩, ?_, ?_⟩
  · rw [hheader]
    exact hlen
  · rw [hheader]
  · rw [deliver, hbody, unwrapCompressed_frame h.1, if_pos]
    rw [hheader]
    exact ⟨rfl, hframed⟩

theorem exists_frames {xs : List Exchange} (h : ∀ x ∈ xs, Framed x) {os : List Octet}
    (hos : os.map Octet.byte = xs.flatMap exchangeBytes) :
    ∃ fs, sent fs = os ∧ (∀ f ∈ fs, f.Valid) ∧ List.Forall₂ Delivers fs xs := by
  induction xs generalizing os with
  | nil =>
    obtain rfl := map_eq_nil_iff.mp hos
    exact ⟨[], rfl, fun f hf => absurd hf not_mem_nil, .nil⟩
  | cons x xs ih =>
    obtain ⟨hx, hxs⟩ := forall_mem_cons.mp h
    rw [flatMap_cons] at hos
    obtain ⟨first, rest, rfl, hfirst, hrest⟩ := map_eq_append_iff.mp hos
    obtain ⟨fs, hsent, hvalid, hdelivers⟩ := ih hxs hrest
    obtain ⟨hvalid', hdelivers'⟩ := delivers_of_octets hx hfirst
    exact ⟨⟨headerAt first, first⟩ :: fs, congrArg (first ++ ·) hsent,
      forall_mem_cons.mpr ⟨hvalid', hvalid⟩, .cons hdelivers' hdelivers⟩

/-- **From the daemon to the application.**  However the bytes of the responses are cut into
chunks, the client finds one response for each exchange, in their order, and settles its
request with the data the daemon framed. -/
theorem responses_delivered {xs : List Exchange} (h : ∀ x ∈ xs, Framed x)
    {cs : List (List Octet)} (hcs : cs.flatten.map Octet.byte = xs.flatMap exchangeBytes) :
    List.Forall₂ Delivers (pushAll [] cs).1 xs := by
  obtain ⟨fs, hsent, hvalid, hdelivers⟩ := exists_frames h hcs
  have hnil : (drain []).1 = [] := by rw [drain_of_short (by decide)]
  have hlossless : Lossless [] cs := lossless_of_sent hvalid hsent.symm
  have hwhole := pushAll_eq hnil hlossless
  rw [nil_append, ← hsent, drain_sent hvalid] at hwhole
  rw [hwhole]
  exact hdelivers

def dumpOctets : List Octet := (exchangeBytes smallDump).map fun b => ⟨b, 0⟩

theorem responses_delivered_smallDump :
    List.Forall₂ Delivers (pushAll [] [dumpOctets.take 7, dumpOctets.drop 7]).1 [smallDump] := by
  have hframed : Framed smallDump := ⟨by decide, Or.inr rfl⟩
  refine responses_delivered (forall_mem_singleton.mpr hframed) ?_
  rw [flatten_cons, flatten_singleton, take_append_drop, flatMap_singleton,
    dumpOctets, map_map]
  exact map_id _

end MemDbg.Tauri
