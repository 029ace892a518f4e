import MemDbg.FlashScan.Session
import MemDbg.Lib.Interval

/-!
# The survivor bitmap

What `bitmap_clear` and `bitmap_next_set` do, bit by bit, and the number of bits a
loop over the set bits visits.
-/

namespace MemDbg.FlashScan

open Lib

variable {bm : List UInt8} {n : Nat}

theorem testBit_clearMask : ∀ m k : Fin 8,
    (~~~((1 : UInt8) <<< UInt8.ofNat m)).toNat.testBit k = decide (k ≠ m) := by
  decide

theorem bitAt_bitmapClear (i j : Nat) :
    bitAt (bitmapClear bm i) j = (bitAt bm j && decide (j ≠ i)) := by
  simp only [bitAt, bitmapClear, List.getD_eq_getElem?_getD, List.getElem?_modify]
  by_cases hbyte : i / 8 = j / 8
  · have hij : j % 8 = i % 8 ↔ j = i := by omega
    have hmask :=
      testBit_clearMask ⟨i % 8, Nat.mod_lt _ (by decide)⟩ ⟨j % 8, Nat.mod_lt _ (by decide)⟩
    cases hget : bm[j / 8]? with
    | none => simp
    | some byte =>
      simp only [hbyte, if_true, Option.map_eq_map, Option.map_some, Option.getD_some,
        UInt8.toNat_and, Nat.testBit_and, hmask, ne_eq, Fin.mk.injEq, hij]
  · have hij : j ≠ i := fun h => hbyte (by rw [h])
    simp [hbyte, hij]

theorem bitAt_bitmapClear_self (i : Nat) : bitAt (bitmapClear bm i) i = false := by
  simp [bitAt_bitmapClear]

theorem bitAt_bitmapClear_of_ne {i j : Nat} (h : j ≠ i) :
    bitAt (bitmapClear bm i) j = bitAt bm j := by
  simp [bitAt_bitmapClear, h]

/-! ## The next set bit -/

theorem bitAt_of_lt_bitmapNextSet {start j : Nat} (hstart : start ≤ j)
    (hj : j < bitmapNextSet bm start n) (hn : j < n) : bitAt bm j = false :=
  (bitmapNextLoop_spec bm (n + 1) (by omega)).2 j hstart hj hn

theorem bitAt_bitmapNextSet {start : Nat} (h : bitmapNextSet bm start n < n) :
    bitAt bm (bitmapNextSet bm start n) = true :=
  ((bitmapNextLoop_spec bm (n + 1) (by omega)).1 h).2

theorem le_bitmapNextSet {bm : List UInt8} {i start n : Nat} (hstart : i ≤ start) (hn : i ≤ n) :
    i ≤ bitmapNextSet bm start n := by
  rcases Nat.lt_or_ge (bitmapNextSet bm start n) n with hlt | hge
  · have hset := (bitmapNextLoop_spec bm (n + 1) (show n < start + (n + 1) by omega)).1 hlt
    exact hstart.trans hset.1
  · exact hn.trans hge

theorem bitmapNextLoop_le (bm : List UInt8) (n fuel i : Nat) : bitmapNextLoop bm n fuel i ≤ n := by
  induction fuel generalizing i with
  | zero => exact le_rfl
  | succ fuel ih =>
    rw [bitmapNextLoop]
    dsimp only
    generalize (if i % 64 = 0 then bitmapSkip bm n (n / 64 + 1) i else i) = i'
    split_ifs with hi hend hbit
    · exact le_rfl
    · exact (not_le.mp hend).le
    · exact ih _
    · exact le_rfl

theorem bitmapNextSet_le (bm : List UInt8) (start n : Nat) : bitmapNextSet bm start n ≤ n :=
  bitmapNextLoop_le bm n (n + 1) start

theorem bitmapNextSet_congr {bm bm' : List UInt8} {start : Nat}
    (h : ∀ j, start ≤ j → j < n → bitAt bm j = bitAt bm' j) :
    bitmapNextSet bm start n = bitmapNextSet bm' start n := by
  have hnot {bm bm' : List UInt8} (h : ∀ j, start ≤ j → j < n → bitAt bm j = bitAt bm' j) :
      ¬bitmapNextSet bm start n < bitmapNextSet bm' start n := by
    intro hlt
    have hn := hlt.trans_le (bitmapNextSet_le bm' start n)
    have hstart : start ≤ bitmapNextSet bm start n :=
      ((bitmapNextLoop_spec bm (n + 1) (by omega)).1 hn).1
    have hset := bitAt_bitmapNextSet hn
    have hclear := bitAt_of_lt_bitmapNextSet hstart hlt hn
    rw [h _ hstart hn, hclear] at hset
    cases hset
  rcases lt_trichotomy (bitmapNextSet bm start n) (bitmapNextSet bm' start n) with hlt | heq | hgt
  · exact absurd hlt (hnot h)
  · exact heq
  · exact absurd hgt (hnot fun j hj hn => (h j hj hn).symm)

theorem pointsIn_bitmapNextSet {start stop : Nat} (hle : start ≤ n) (hstop : stop ≤ n) :
    pointsIn (bitAt bm) start stop = pointsIn (bitAt bm) (bitmapNextSet bm start n) stop :=
  pointsIn_skip (le_bitmapNextSet le_rfl hle) fun _ hj hlt hn =>
    bitAt_of_lt_bitmapNextSet hj hlt (hn.trans_le hstop)

end MemDbg.FlashScan
