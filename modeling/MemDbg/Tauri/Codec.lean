import MemDbg.Tauri.Lz4
import MemDbg.Daemon.Ops

/-!
# The client's codec

`codec.ts`: the reader of bodies, the header of a response, the framer that cuts a byte
stream into responses, and the prefix of the bodies that may be compressed.  A byte that
came in is kept with the transport it came through; the framer never looks at that.
-/

namespace MemDbg.Tauri

open List Lib Daemon.Dispatch

/-! ## Bodies -/

def outOfBounds : String := "Offset is outside the bounds of the DataView"

def readUint (w : Nat) (body : List UInt8) : Except String (Nat × List UInt8) :=
  if body.length < w then .error outOfBounds else .ok (leNat (body.take w), body.drop w)

def readCString (size : Nat) (body : List UInt8) : Except String (List UInt8 × List UInt8) :=
  if body.length < size then .error outOfBounds
  else .ok ((body.take size).takeWhile (· ≠ 0), body.drop size)

/-! ## Frames -/

/-- A byte that came in, and the transport it came through. -/
structure Octet where
  byte : UInt8
  via : Nat
deriving DecidableEq

structure ResponseHeader where
  magic : Nat
  version : Nat
  command : Nat
  requestId : Nat
  status : Int
  length : Nat
deriving DecidableEq

def responseHeaderSize : Nat := 20

def mdbgMagic : Nat := 0x4742444D

def decodeResponseHeader (buf : List UInt8) : ResponseHeader where
  magic := leNat (buf.take 4)
  version := leNat ((buf.drop 4).take 2)
  command := leNat ((buf.drop 6).take 2)
  requestId := leNat ((buf.drop 8).take 4)
  status := int32 (leNat ((buf.drop 12).take 4))
  length := leNat ((buf.drop 16).take 4)

def headerAt (buf : List Octet) : ResponseHeader := decodeResponseHeader (buf.map Octet.byte)

structure Frame where
  header : ResponseHeader
  octets : List Octet
deriving DecidableEq

def Frame.body (f : Frame) : List UInt8 := (f.octets.drop responseHeaderSize).map Octet.byte

def findMagic (buf : List Octet) (start : Nat) : Option Nat :=
  (List.range' start (buf.length - 3 - start)).find? fun i =>
    ((buf.drop i).take 4).map Octet.byte = [0x4D, 0x44, 0x42, 0x47]

theorem le_of_findMagic {buf : List Octet} {start i : Nat} (h : findMagic buf start = some i) :
    start ≤ i :=
  (mem_range'_1.mp (mem_of_find?_eq_some h)).1

def drain (buf : List Octet) : List Frame × List Octet :=
  if buf.length < responseHeaderSize then ([], buf)
  else if (headerAt buf).magic ≠ mdbgMagic then
    match _h : findMagic buf 1 with
    | none => ([], [])
    | some i => drain (buf.drop i)
  else if buf.length < responseHeaderSize + (headerAt buf).length then ([], buf)
  else
    let (frames, rest) := drain (buf.drop (responseHeaderSize + (headerAt buf).length))
    (⟨headerAt buf, buf.take (responseHeaderSize + (headerAt buf).length)⟩ :: frames, rest)
termination_by buf.length
decreasing_by
  · have := le_of_findMagic _h
    have hsize : responseHeaderSize = 20 := rfl
    rw [length_drop]
    omega
  · have hsize : responseHeaderSize = 20 := rfl
    rw [length_drop]
    omega

theorem drain_subset {P : Octet → Prop} {buf : List Octet} (h : ∀ o ∈ buf, P o) :
    (∀ f ∈ (drain buf).1, ∀ o ∈ f.octets, P o) ∧ ∀ o ∈ (drain buf).2, P o := by
  have hnil : ∀ f ∈ ([] : List Frame), ∀ o ∈ f.octets, P o := fun f hf => absurd hf not_mem_nil
  induction buf using drain.induct with
  | case1 buf hshort =>
    rw [drain, if_pos hshort]
    exact ⟨hnil, h⟩
  | case2 buf hlong hmagic hfind =>
    rw [drain, if_neg hlong, if_pos hmagic]
    split
    next => exact ⟨hnil, fun o ho => absurd ho not_mem_nil⟩
    next i hi =>
      rw [hfind] at hi
      cases hi
  | case3 buf hlong hmagic i hfind ih =>
    rw [drain, if_neg hlong, if_pos hmagic]
    split
    next hnone =>
      rw [hfind] at hnone
      cases hnone
    next j hj =>
      rw [hfind] at hj
      cases hj
      exact ih fun o ho => h o (mem_of_mem_drop ho)
  | case4 buf hlong hmagic hpart =>
    rw [drain, if_neg hlong, if_neg hmagic, if_pos hpart]
    exact ⟨hnil, h⟩
  | case5 buf hlong hmagic hpart frames rest hdrain ih =>
    rw [drain, if_neg hlong, if_neg hmagic, if_neg hpart]
    obtain ⟨hframes, hrest⟩ := ih fun o ho => h o (mem_of_mem_drop ho)
    refine ⟨fun f hf o ho => ?_, hrest⟩
    rcases mem_cons.mp hf with rfl | hf
    · exact h o (mem_of_mem_take ho)
    · exact hframes f hf o ho

/-! ## Compressed bodies -/

def unwrapCompressed (body : List UInt8) : Except String (List UInt8) :=
  match body with
  | [] => .ok []
  | flag :: rest =>
    if flag = 0x00 then .ok rest
    else if flag = 0x01 then
      if body.length < 5 then .error "lz4: truncated header"
      else lz4Decompress (body.drop 5) (leNat (rest.take 4))
    else .ok body

end MemDbg.Tauri
