import MemDbg.Core.Status
import MemDbg.Lib.Bytes

/-!
# Scatter-gather writes to a socket

`pal_socket_writev_n` hands up to three buffers to `writev` until the socket has taken all of them.
How much of them a call takes is up to the kernel: it is part of a run here, as are interruptions
and errors.
-/

namespace MemDbg.Pal

open List Lib

/-! ## Buffers -/

structure Iovec where
  iovBase : Nat
  iovLen : Nat
deriving DecidableEq

def Iovec.bytes (mem : Nat → UInt8) (v : Iovec) : List UInt8 := slice mem v.iovBase v.iovLen

@[simp] theorem Iovec.length_bytes (mem : Nat → UInt8) (v : Iovec) :
    (v.bytes mem).length = v.iovLen := length_slice mem _ _

def gathered (mem : Nat → UInt8) (iov : List Iovec) : List UInt8 := iov.flatMap (Iovec.bytes mem)

@[simp] theorem gathered_nil (mem : Nat → UInt8) : gathered mem [] = [] := rfl

@[simp] theorem gathered_cons (mem : Nat → UInt8) (v : Iovec) (iov : List Iovec) :
    gathered mem (v :: iov) = v.bytes mem ++ gathered mem iov := flatMap_cons

/-! ## The kernel -/

inductive WriteErrno where
  | einval
  | eoverflow
  | epipe
  | kernel (errno : Nat)
deriving DecidableEq

inductive WritevReply where
  | took (n : Nat)
  | eintr
  | failed (errno : Nat)
deriving DecidableEq

/-- The answer is a positive count. -/
def WritevReply.Positive : WritevReply → Prop
  | .took n => 0 < n
  | _ => False

/-! ## The loop -/

def toSsize (n : Nat) : Int := if n < 2 ^ 63 then n else (n : Int) - 2 ^ 64

structure Transfer where
  iov : List Iovec
  written : Nat
  sent : List UInt8
deriving DecidableEq

structure WritevResult where
  ret : Int
  errno : Option WriteErrno
  sent : List UInt8
deriving DecidableEq

def rebase : Nat → List Iovec → List Iovec
  | _, [] => []
  | remain, v :: rest =>
    if remain = 0 then v :: rest
    else if v.iovLen ≤ remain then { v with iovLen := 0 } :: rebase (remain - v.iovLen) rest
    else ⟨v.iovBase + remain, v.iovLen - remain⟩ :: rest

def pending (iov : List Iovec) : List Iovec := iov.filter fun v => decide (0 < v.iovLen)

def Transfer.take (mem : Nat → UInt8) (n : Nat) (t : Transfer) : Transfer :=
  let taken := (gathered mem (pending t.iov)).take n
  { iov := rebase taken.length t.iov
    written := wrap64 (t.written + taken.length)
    sent := t.sent ++ taken }

def writevTurn (mem : Nat → UInt8) (total : Nat) (reply : WritevReply) (t : Transfer) :
    Except WritevResult Transfer :=
  if pending t.iov = [] then .error ⟨toSsize total, none, t.sent⟩
  else
    match reply with
    | .eintr => .ok t
    | .failed errno => .error ⟨-1, some (.kernel errno), t.sent⟩
    | .took n => if n = 0 then .error ⟨-1, some .epipe, t.sent⟩ else .ok (t.take mem n)

def writevLoop (mem : Nat → UInt8) (total : Nat) :
    List WritevReply → Transfer → Option WritevResult
  | [], t => if t.written < total then none else some ⟨toSsize total, none, t.sent⟩
  | reply :: replies, t =>
    if t.written < total then
      match writevTurn mem total reply t with
      | .error r => some r
      | .ok t => writevLoop mem total replies t
    else some ⟨toSsize total, none, t.sent⟩

def sumLengths : Nat → List Iovec → Except WriteErrno Nat
  | total, [] => .ok total
  | total, v :: rest =>
    if v.iovLen ≠ 0 ∧ v.iovBase = 0 then .error .einval
    else if v.iovLen > 2 ^ 64 - 1 - total then .error .eoverflow
    else sumLengths (total + v.iovLen) rest

def checkBuffers (fd : Int) (iov : List Iovec) : Except WriteErrno Nat :=
  if fd < 0 ∨ iov.length = 0 ∨ iov.length > 3 then .error .einval
  else
    match sumLengths 0 iov with
    | .error errno => .error errno
    | .ok total => if total = 0 then .error .einval else .ok total

def palSocketWritevN (mem : Nat → UInt8) (fd : Int) (iov : List Iovec)
    (replies : List WritevReply) : Option WritevResult :=
  match checkBuffers fd iov with
  | .error errno => some ⟨-1, some errno, []⟩
  | .ok total => writevLoop mem total replies ⟨iov, 0, []⟩

def palSocketWritevAll (mem : Nat → UInt8) (fd : Int) (iov0 iov1 : Iovec)
    (replies : List WritevReply) : Option WritevResult :=
  palSocketWritevN mem fd [iov0, iov1] replies

def palSocketWritev3All (mem : Nat → UInt8) (fd : Int) (iov0 iov1 iov2 : Iovec)
    (replies : List WritevReply) : Option WritevResult :=
  palSocketWritevN mem fd [iov0, iov1, iov2] replies

/-! ## The buffers -/

section

variable {mem : Nat → UInt8} {iov : List Iovec} {total n : Nat}

theorem gathered_pending (mem : Nat → UInt8) (iov : List Iovec) :
    gathered mem (pending iov) = gathered mem iov := by
  induction iov with
  | nil => rfl
  | cons v iov ih =>
    rw [pending] at ih ⊢
    by_cases hlen : 0 < v.iovLen
    · rw [filter_cons_of_pos (by simpa using hlen), gathered_cons, gathered_cons, ih]
    · have hempty : v.bytes mem = [] := by
        rw [← length_eq_zero_iff, Iovec.length_bytes]
        exact Nat.eq_zero_of_not_pos hlen
      rw [filter_cons_of_neg (by simpa using hlen), gathered_cons, hempty, nil_append, ih]

theorem gathered_rebase (mem : Nat → UInt8) (n : Nat) (iov : List Iovec) :
    gathered mem (rebase n iov) = (gathered mem iov).drop n := by
  induction iov generalizing n with
  | nil => simp [rebase]
  | cons v iov ih =>
    rw [rebase]
    split_ifs with hzero hle
    · rw [hzero, drop_zero]
    · -- the whole buffer is taken
      have hgone : (v.bytes mem).drop n = [] :=
        drop_of_length_le (by rwa [Iovec.length_bytes])
      rw [gathered_cons, gathered_cons, ih, drop_append, Iovec.length_bytes, hgone]
      rfl
    · -- the buffer is taken in part
      have hlen : n ≤ (v.bytes mem).length := by
        rw [Iovec.length_bytes]
        exact Nat.le_of_not_le hle
      rw [gathered_cons, gathered_cons, drop_append_of_le_length hlen]
      exact congrArg (· ++ _) (drop_slice mem _ _ _).symm

theorem sumLengths_ok (mem : Nat → UInt8) (h : sumLengths n iov = .ok total) :
    total = n + (gathered mem iov).length ∧ (n < 2 ^ 64 → total < 2 ^ 64) := by
  induction iov generalizing n with
  | nil =>
    cases h
    exact ⟨rfl, id⟩
  | cons v iov ih =>
    rw [sumLengths] at h
    split_ifs at h with hnull hover
    obtain ⟨htotal, hlt⟩ := ih h
    rw [gathered_cons, length_append, Iovec.length_bytes, ← Nat.add_assoc]
    exact ⟨htotal, fun hn => hlt (by omega)⟩

/-! ## The transfer -/

structure Transfer.Conserves (t : Transfer) (mem : Nat → UInt8) (data : List UInt8) : Prop where
  bytes : t.sent ++ gathered mem t.iov = data
  written : t.written = t.sent.length

variable {t : Transfer} {data : List UInt8}

theorem Transfer.Conserves.written_add (h : t.Conserves mem data) :
    t.written + (gathered mem t.iov).length = data.length := by
  rw [h.written, ← h.bytes, length_append]

theorem Transfer.Conserves.pending_ne_nil (h : t.Conserves mem data)
    (hleft : t.written < data.length) : pending t.iov ≠ [] := by
  intro hnone
  have hsum := h.written_add
  rw [← gathered_pending, hnone, gathered_nil, length_nil] at hsum
  omega

theorem Transfer.Conserves.take (h : t.Conserves mem data) (hdata : data.length < 2 ^ 64)
    (n : Nat) : (t.take mem n).Conserves mem data := by
  have hsum := h.written_add
  have htaken : ((gathered mem t.iov).take n).length ≤ (gathered mem t.iov).length :=
    length_take_le' _ _
  constructor
  · rw [Transfer.take, gathered_pending]
    dsimp only
    rw [gathered_rebase, append_assoc, length_take, ← h.bytes]
    congr 1
    rcases Nat.le_total n (gathered mem t.iov).length with hle | hge
    · rw [Nat.min_eq_left hle, take_append_drop]
    · rw [Nat.min_eq_right hge, take_of_length_le hge, drop_length, append_nil]
  · rw [Transfer.take, gathered_pending]
    dsimp only
    rw [wrap64_of_lt (by omega), length_append, h.written]

theorem Transfer.Conserves.written_lt_take (h : t.Conserves mem data)
    (hdata : data.length < 2 ^ 64) (hleft : t.written < data.length) (hn : 0 < n) :
    t.written < (t.take mem n).written := by
  have hsum := h.written_add
  have hlen : 0 < ((gathered mem t.iov).take n).length := by
    rw [length_take]
    omega
  rw [(h.take hdata n).written, Transfer.take, gathered_pending, length_append, h.written]
  omega

theorem Transfer.Conserves.sent_eq (h : t.Conserves mem data) (hdone : ¬ t.written < data.length) :
    t.sent = data := by
  have hsum := h.written_add
  have hrest : gathered mem t.iov = [] := length_eq_zero_iff.mp (by omega)
  have hbytes := h.bytes
  rwa [hrest, append_nil] at hbytes

theorem writevTurn_ok (hdata : data.length < 2 ^ 64) {reply : WritevReply} {t' : Transfer}
    (h : t.Conserves mem data) (hturn : writevTurn mem data.length reply t = .ok t') :
    t'.Conserves mem data := by
  rw [writevTurn.eq_def] at hturn
  split_ifs at hturn with hnone
  cases reply with
  | eintr =>
    cases hturn
    exact h
  | failed errno => cases hturn
  | took n =>
    dsimp only at hturn
    split_ifs at hturn with hzero
    cases hturn
    exact h.take hdata n

theorem writevTurn_error {reply : WritevReply} {r : WritevResult} (h : t.Conserves mem data)
    (hleft : t.written < data.length) (hturn : writevTurn mem data.length reply t = .error r) :
    r.ret = -1 := by
  rw [writevTurn.eq_def, if_neg (h.pending_ne_nil hleft)] at hturn
  cases reply with
  | eintr => cases hturn
  | failed errno =>
    cases hturn
    rfl
  | took n =>
    dsimp only at hturn
    split_ifs at hturn with hzero
    cases hturn
    rfl

theorem writevLoop_exact (hdata : data.length < 2 ^ 64) {replies : List WritevReply}
    {r : WritevResult} (h : t.Conserves mem data)
    (hr : writevLoop mem data.length replies t = some r) : r.ret = -1 ∨ r.sent = data := by
  induction replies generalizing t with
  | nil =>
    rw [writevLoop] at hr
    split_ifs at hr with hleft
    obtain rfl := Option.some.inj hr
    exact .inr (h.sent_eq hleft)
  | cons reply replies ih =>
    rw [writevLoop] at hr
    split_ifs at hr with hleft
    · cases hturn : writevTurn mem data.length reply t with
      | error r' =>
        rw [hturn] at hr
        obtain rfl := Option.some.inj hr
        exact .inl (writevTurn_error h hleft hturn)
      | ok t' =>
        rw [hturn] at hr
        exact ih (writevTurn_ok hdata h hturn) hr
    · obtain rfl := Option.some.inj hr
      exact .inr (h.sent_eq hleft)

theorem writevLoop_returns (hdata : data.length < 2 ^ 64) {replies : List WritevReply}
    (h : t.Conserves mem data) (hpos : ∀ reply ∈ replies, reply.Positive)
    (hlen : data.length ≤ t.written + replies.length) :
    writevLoop mem data.length replies t = some ⟨toSsize data.length, none, data⟩ := by
  induction replies generalizing t with
  | nil =>
    have hdone : ¬ t.written < data.length := Nat.not_lt.mpr hlen
    rw [writevLoop, if_neg hdone, h.sent_eq hdone]
  | cons reply replies ih =>
    obtain ⟨hreply, hrest⟩ := forall_mem_cons.mp hpos
    rw [writevLoop]
    split_ifs with hleft
    · cases reply with
      | eintr => exact hreply.elim
      | failed errno => exact hreply.elim
      | took n =>
        have hlt := h.written_lt_take hdata hleft hreply
        have hturn : writevTurn mem data.length (.took n) t = .ok (t.take mem n) := by
          rw [writevTurn, if_neg (h.pending_ne_nil hleft)]
          exact if_neg (Nat.pos_iff_ne_zero.mp hreply)
        rw [hturn]
        rw [length_cons] at hlen
        exact ih (h.take hdata n) hrest (by omega)
    · rw [h.sent_eq hleft]

end

/-! ## The result -/

theorem checkBuffers_ok (mem : Nat → UInt8) {fd : Int} {iov : List Iovec} {total : Nat}
    (h : checkBuffers fd iov = .ok total) :
    total = (gathered mem iov).length ∧ (gathered mem iov).length < 2 ^ 64 := by
  rw [checkBuffers] at h
  split_ifs at h with hcheck
  cases hsum : sumLengths 0 iov with
  | error errno =>
    rw [hsum] at h
    cases h
  | ok sum =>
    rw [hsum] at h
    dsimp only at h
    split_ifs at h with hzero
    obtain rfl := Except.ok.inj h
    obtain ⟨htotal, hlt⟩ := sumLengths_ok mem hsum
    rw [Nat.zero_add] at htotal
    exact ⟨htotal, htotal ▸ hlt (by decide)⟩

/-- Whatever `writev` answers, `pal_socket_writev_n` returns -1 or the socket has got all the
buffers, one after the other.  If all answers are positive counts it returns, and buffers that pass
its checks have then been written, with their total length as the result. -/
theorem palSocketWritevN_exact (mem : Nat → UInt8) (fd : Int) (iov : List Iovec) :
    (∀ (replies : List WritevReply) (r : WritevResult),
      palSocketWritevN mem fd iov replies = some r → r.ret = -1 ∨ r.sent = gathered mem iov) ∧
      ∀ replies : Nat → WritevReply, (∀ i, (replies i).Positive) →
        ∃ calls r, palSocketWritevN mem fd iov ((List.range calls).map replies) = some r ∧
          ∀ total, checkBuffers fd iov = .ok total →
            r = ⟨toSsize total, none, gathered mem iov⟩ := by
  have hstart : Transfer.Conserves ⟨iov, 0, []⟩ mem (gathered mem iov) := ⟨rfl, rfl⟩
  cases hcheck : checkBuffers fd iov with
  | error errno =>
    simp only [palSocketWritevN, hcheck]
    constructor
    · intro _ r hr
      obtain rfl := Option.some.inj hr
      exact .inl rfl
    · intro _ _
      exact ⟨0, _, rfl, nofun⟩
  | ok total =>
    obtain ⟨rfl, hdata⟩ := checkBuffers_ok mem hcheck
    simp only [palSocketWritevN, hcheck]
    constructor
    · intro replies r hr
      exact writevLoop_exact hdata hstart hr
    · intro replies hpos
      refine ⟨(gathered mem iov).length, _, writevLoop_returns hdata hstart ?_ ?_, ?_⟩
      · intro reply hreply
        obtain ⟨i, -, rfl⟩ := mem_map.mp hreply
        exact hpos i
      · rw [length_map, length_range]
        exact Nat.le_add_left _ _
      · rintro _ ⟨⟩
        rfl

theorem palSocketWritevN_exact_parts :
    (∃ r, palSocketWritevN (fun a => UInt8.ofNat a) 5 [⟨16, 2⟩, ⟨0, 0⟩, ⟨32, 1⟩]
        [.took 1, .eintr, .took 2] = some r ∧ (r.ret = -1 ∨ r.sent = [16, 17, 32])) ∧
      ∃ calls, palSocketWritevN (fun a => UInt8.ofNat a) 5 [⟨16, 2⟩, ⟨0, 0⟩, ⟨32, 1⟩]
        ((List.range calls).map fun _ => .took 1) = some ⟨3, none, [16, 17, 32]⟩ := by
  obtain ⟨hexact, hreturns⟩ :=
    palSocketWritevN_exact (fun a => UInt8.ofNat a) 5 [⟨16, 2⟩, ⟨0, 0⟩, ⟨32, 1⟩]
  have hparts := hexact [.took 1, .eintr, .took 2] ⟨3, none, [16, 17, 32]⟩ (by decide)
  obtain ⟨calls, r, hr, hfull⟩ := hreturns (fun _ => .took 1) fun _ => Nat.one_pos
  rw [hfull 3 (by decide)] at hr
  exact ⟨⟨_, by decide, hparts⟩, calls, hr⟩

end MemDbg.Pal
