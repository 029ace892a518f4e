import Mathlib.Order.CompletePartialOrder
import Mathlib.Data.Set.Lattice

/-!
# Layouts

A layout is a list of pairwise disjoint blocks inside a set of mapped addresses.
An allocator keeps one: it cuts blocks, hands them over from one of its lists to
another, and adds or removes blocks together with their memory.
-/

namespace MemDbg.Lib

structure Block where
  addr : Nat
  size : Nat
deriving DecidableEq

def Block.bytes (b : Block) : Set Nat := {x | b.addr ≤ x ∧ x < b.addr + b.size}

theorem Block.mem_bytes {b : Block} {x : Nat} :
    x ∈ b.bytes ↔ b.addr ≤ x ∧ x < b.addr + b.size := Iff.rfl

structure Layout (mapped : Set Nat) (blocks : List Block) : Prop where
  disjoint : blocks.Pairwise fun b c => Disjoint b.bytes c.bytes
  subset : ∀ b ∈ blocks, b.bytes ⊆ mapped

namespace Layout

variable {mapped : Set Nat} {blocks blocks' : List Block} {b b' : Block}

theorem nil : Layout mapped [] := ⟨List.Pairwise.nil, fun _ h => absurd h List.not_mem_nil⟩

theorem cons_iff : Layout mapped (b :: blocks) ↔
    Layout mapped blocks ∧ b.bytes ⊆ mapped ∧ ∀ c ∈ blocks, Disjoint b.bytes c.bytes := by
  constructor
  · intro h
    obtain ⟨hb, hblocks⟩ := List.pairwise_cons.mp h.disjoint
    exact ⟨⟨hblocks, fun c hc => h.subset c (List.mem_cons_of_mem _ hc)⟩,
      h.subset b List.mem_cons_self, hb⟩
  · rintro ⟨h, hb, hdisj⟩
    refine ⟨List.pairwise_cons.mpr ⟨hdisj, h.disjoint⟩, fun c hc => ?_⟩
    rcases List.mem_cons.mp hc with rfl | hc
    · exact hb
    · exact h.subset c hc

theorem perm (h : Layout mapped blocks) (hperm : blocks.Perm blocks') : Layout mapped blocks' :=
  ⟨(hperm.pairwise_iff fun hdisj => hdisj.symm).mp h.disjoint,
    fun c hc => h.subset c (hperm.mem_iff.mpr hc)⟩

theorem sublist (h : Layout mapped blocks) (hsub : blocks'.Sublist blocks) :
    Layout mapped blocks' :=
  ⟨h.disjoint.sublist hsub, fun c hc => h.subset c (hsub.mem hc)⟩

theorem shrink (h : Layout mapped (b :: blocks)) (hsub : b'.bytes ⊆ b.bytes) :
    Layout mapped (b' :: blocks) := by
  obtain ⟨hblocks, hb, hdisj⟩ := cons_iff.mp h
  exact cons_iff.mpr ⟨hblocks, hsub.trans hb, fun c hc => (hdisj c hc).mono_left hsub⟩

theorem split {a n k : Nat} (h : Layout mapped (⟨a, n + k⟩ :: blocks)) :
    Layout mapped (⟨a, n⟩ :: ⟨a + n, k⟩ :: blocks) := by
  have hleft : (⟨a, n⟩ : Block).bytes ⊆ (⟨a, n + k⟩ : Block).bytes := by
    intro x hx
    simp only [Block.mem_bytes] at hx ⊢
    omega
  have hright : (⟨a + n, k⟩ : Block).bytes ⊆ (⟨a, n + k⟩ : Block).bytes := by
    intro x hx
    simp only [Block.mem_bytes] at hx ⊢
    omega
  obtain ⟨-, hmapped, hdisj⟩ := cons_iff.mp (h.shrink hleft)
  refine cons_iff.mpr ⟨h.shrink hright, hmapped, fun c hc => ?_⟩
  rcases List.mem_cons.mp hc with rfl | hc
  · rw [Set.disjoint_left]
    intro x hx hx'
    simp only [Block.mem_bytes] at hx hx'
    omega
  · exact hdisj c hc

theorem grow (h : Layout mapped blocks) (hfresh : Disjoint b.bytes mapped) :
    Layout (mapped ∪ b.bytes) (b :: blocks) := by
  refine cons_iff.mpr ⟨⟨h.disjoint, fun c hc => ?_⟩, Set.subset_union_right, fun c hc => ?_⟩
  · exact (h.subset c hc).trans Set.subset_union_left
  · exact hfresh.mono_right (h.subset c hc)

theorem unmap (h : Layout mapped blocks) {gone : Set Nat}
    (hout : ∀ c ∈ blocks, Disjoint c.bytes gone) : Layout (mapped \ gone) blocks :=
  ⟨h.disjoint, fun c hc => Set.subset_sdiff.mpr ⟨h.subset c hc, hout c hc⟩⟩

end Layout

end MemDbg.Lib
