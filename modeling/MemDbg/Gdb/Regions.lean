import MemDbg.Gdb.Memory

/-!
# What the maps cover

The bridge tells from the maps of the target whether a range is mapped, and of each address the
region it lies in.  A client walks the address space by asking for the address behind each region.
-/

namespace MemDbg.Gdb

open List Lib

/-- The address lies in the map. -/
def MapEntry.Contains (m : MapEntry) (x : Nat) : Prop := m.start ≤ x ∧ x < m.stop

instance (m : MapEntry) (x : Nat) : Decidable (m.Contains x) :=
  inferInstanceAs (Decidable (_ ∧ _))

/-! ## Ranges -/

section

variable {maps : List MapEntry} {requestEnd cursor : Nat}

theorem coveredEnd_mem (h : coveredEnd maps requestEnd cursor ≠ cursor) :
    ∃ m ∈ maps, m.Contains cursor ∧ coveredEnd maps requestEnd cursor ≤ m.stop := by
  refine List.foldlRecOn (motive := fun covered => covered ≠ cursor →
    ∃ m ∈ maps, m.Contains cursor ∧ covered ≤ m.stop) maps _ (fun hne => absurd rfl hne)
    (fun covered ih m hm => ?_) h
  split_ifs with hmap
  · exact fun _ => ⟨m, hm, ⟨hmap.1, hmap.2.1⟩, Nat.min_le_left _ _⟩
  · exact ih

theorem lt_coveredEnd (hcursor : cursor < requestEnd) {m : MapEntry} (hm : m ∈ maps)
    (hin : m.Contains cursor) : cursor < coveredEnd maps requestEnd cursor := by
  unfold coveredEnd
  obtain ⟨before, behind, rfl⟩ := append_of_mem hm
  rw [foldl_append, foldl_cons]
  have hge := le_coveredEnd before hcursor
  have hmove : ∀ covered, cursor ≤ covered → cursor <
      if m.start ≤ cursor ∧ cursor < m.stop ∧ m.stop > covered then min m.stop requestEnd
      else covered := by
    intro covered hcovered
    split_ifs with hmap
    · exact Nat.lt_min.mpr ⟨hin.2, hcursor⟩
    · by_contra hnot
      exact hmap ⟨hin.1, hin.2, by have := hin.2; omega⟩
  refine List.foldlRecOn (motive := fun covered => cursor < covered) behind _ (hmove _ hge)
    fun covered hcovered m' _ => ?_
  split_ifs with hmap
  · exact Nat.lt_min.mpr ⟨hmap.2.1, hcursor⟩
  · exact hcovered

theorem mappedFrom_iff : mappedFrom maps requestEnd cursor = true ↔
    ∀ x, cursor ≤ x → x < requestEnd → ∃ m ∈ maps, m.Contains x := by
  induction cursor using mappedFrom.induct maps requestEnd with
  | case1 cursor hlt hstuck =>
    rw [mappedFrom, dif_pos hlt, dif_pos hstuck]
    refine ⟨nofun, fun hall => ?_⟩
    obtain ⟨m, hm, hin⟩ := hall cursor (Nat.le_refl _) hlt
    exact absurd (lt_coveredEnd hlt hm hin) (by omega)
  | case2 cursor hlt hmoved ih =>
    rw [mappedFrom, dif_pos hlt, dif_neg hmoved, ih]
    refine ⟨fun hall x hle hx => ?_, fun hall x hle hx => ?_⟩
    · rcases Nat.lt_or_ge x (coveredEnd maps requestEnd cursor) with hbefore | hbehind
      · obtain ⟨m, hm, hin, hstop⟩ := coveredEnd_mem hmoved
        exact ⟨m, hm, Nat.le_trans hin.1 hle, Nat.lt_of_lt_of_le hbefore hstop⟩
      · exact hall x hbehind hx
    · exact hall x (Nat.le_trans (le_coveredEnd maps hlt) hle) hx
  | case3 cursor hge =>
    rw [mappedFrom, dif_neg hge]
    exact ⟨fun _ x hle hx => absurd hx (by omega), fun _ => rfl⟩

theorem gdbMemoryRangeMapped_iff {address length : Nat} (h : address + length ≤ maxU64) :
    gdbMemoryRangeMapped maps address length = true ↔
      ∀ x, address ≤ x → x < address + length → ∃ m ∈ maps, m.Contains x := by
  unfold gdbMemoryRangeMapped
  split_ifs with hzero hwrap
  · exact ⟨fun _ x hle hx => absurd hx (by omega), fun _ => rfl⟩
  · exact absurd hwrap (by omega)
  · exact mappedFrom_iff

end

/-! ## Searches -/

def SearchRequest.Matches (r : SearchRequest) (mem : Nat → UInt8) (x : Nat) : Prop :=
  r.address ≤ x ∧ x + r.pattern.length ≤ r.address + r.length ∧ slice mem x r.pattern.length =
    r.pattern

/-- The reply to a search tells the least match, or that there is none. -/
structure SearchExact (mem : Nat → UInt8) (r : SearchRequest) (reply : List UInt8) : Prop where
  found : ∀ x, r.Matches mem x → (∀ y, r.Matches mem y → x ≤ y) → reply = foundPacket x
  missing : reply = notFoundPacket ↔ ∀ x, ¬r.Matches mem x

theorem searchReply_exact {mem : Nat → UInt8} {r : SearchRequest} :
    SearchExact mem r (searchReply
      (hits (occursAt mem r.pattern) r.address (r.length + 1 - r.pattern.length)).head?) := by
  have hmatches : ∀ x, r.Matches mem x ↔ (r.address ≤ x ∧
      x < r.address + (r.length + 1 - r.pattern.length)) ∧ occursAt mem r.pattern x = true := by
    intro x
    unfold SearchRequest.Matches occursAt
    rw [beq_iff_eq, and_assoc]
    refine and_congr_right fun _ => and_congr_left fun _ => ?_
    omega
  cases hhead : (hits (occursAt mem r.pattern) r.address
      (r.length + 1 - r.pattern.length)).head? with
  | some a =>
    obtain ⟨hin, hp, hbefore⟩ := head?_hits_eq_some.mp hhead
    have ha := (hmatches a).mpr ⟨hin, hp⟩
    refine ⟨fun x hx hleast => ?_, ⟨nofun, fun h => absurd ha (h a)⟩⟩
    obtain heq | hlt := Nat.eq_or_lt_of_le (hleast a ha)
    · rw [heq]
      rfl
    · cases ((hmatches x).mp hx).2.symm.trans (hbefore x hx.1 hlt)
  | none =>
    have hnone : ∀ x, ¬r.Matches mem x := fun x hx => by
      have hmem := mem_hits.mpr ((hmatches x).mp hx)
      rw [head?_eq_none_iff.mp hhead] at hmem
      cases hmem
    exact ⟨fun x hx _ => absurd hx (hnone x), ⟨fun _ => hnone, fun _ => rfl⟩⟩

/-- Ranges are mapped, and matches are found, exactly where they are. -/
theorem mapped_and_search_exact :
    (∀ (maps : List MapEntry) (address length : Nat), address + length ≤ maxU64 →
      (gdbMemoryRangeMapped maps address length = true ↔
        ∀ x, address ≤ x → x < address + length → ∃ m ∈ maps, m.Contains x)) ∧
    ∀ (s : Bridge) (packet : List UInt8) (r : SearchRequest),
      parseSearchMemory s.maps packet = .ok r →
        SearchExact s.mem r (s.handleSearchMemory packet) := by
  refine ⟨fun maps address length h => gdbMemoryRangeMapped_iff h, fun s packet r hr => ?_⟩
  rw [handleSearchMemory_eq, plainSearch, hr]
  exact searchReply_exact

def searchOneTwo : List UInt8 := searchPrefix ++ [49, 48, 59, 56, 59, 1, 2]

theorem mapped_and_search_exact_first :
    (gdbMemoryRangeMapped [⟨16, 20⟩, ⟨18, 24⟩] 16 8 = true ↔
      ∀ x, 16 ≤ x → x < 24 → ∃ m ∈ [(⟨16, 20⟩ : MapEntry), ⟨18, 24⟩], m.Contains x) ∧
    SearchExact (fun a => UInt8.ofNat (a % 4)) ⟨16, 8, [1, 2]⟩
      (Bridge.handleSearchMemory
        ⟨fun a => UInt8.ofNat (a % 4), fun _ => none, fun _ => none, none⟩ searchOneTwo) :=
  ⟨mapped_and_search_exact.1 [⟨16, 20⟩, ⟨18, 24⟩] 16 8 (by decide),
    mapped_and_search_exact.2 ⟨fun a => UInt8.ofNat (a % 4), fun _ => none, fun _ => none, none⟩
      searchOneTwo ⟨16, 8, [1, 2]⟩ (by decide)⟩

/-! ## Regions -/

structure NamedMap extends MapEntry where
  protection : Nat
  name : List UInt8
  start_le : start ≤ maxU64
  stop_le : stop ≤ maxU64

structure Region where
  start : Nat
  size : Nat
  permissions : List UInt8
  name : List UInt8
deriving DecidableEq

def permissions (protection : Nat) : List UInt8 :=
  (if protection.testBit 0 then [114] else []) ++ (if protection.testBit 1 then [119] else []) ++
    if protection.testBit 2 then [120] else []

def nextStart (maps : List NamedMap) (address : Nat) : Nat :=
  maps.foldl (fun next m => if m.start > address ∧ m.start < next then m.start else next) maxU64

def regionAt (maps : List NamedMap) (address : Nat) : Region :=
  match maps.find? fun m => m.Contains address with
  | some m => ⟨m.start, m.stop - m.start, permissions m.protection, m.name⟩
  | none =>
    let next := nextStart maps address
    ⟨address, if next = maxU64 then maxU64 - address else next - address, [], []⟩

def hexText (n : Nat) : List UInt8 := (Nat.toDigits 16 n).map fun c => UInt8.ofNat c.toNat

def ascii (s : String) : List UInt8 := s.toList.map fun c => UInt8.ofNat c.toNat

def regionReply (r : Region) : List UInt8 :=
  ascii "start:" ++ hexText r.start ++ ascii ";size:" ++ hexText r.size ++
    ascii ";permissions:" ++ r.permissions ++ ascii ";" ++
      if r.name = [] then [] else ascii "name:" ++ bytesToHex r.name ++ ascii ";"

def regionRequest (packet : List UInt8) : Option Nat :=
  let head := ascii "qMemoryRegionInfo:"
  if head <+: packet then
    let text := (packet.drop head.length).takeWhile (· != 0)
    parseHexU64 text 0 text.length
  else none

def memoryRegionInfo (maps : Option (List NamedMap)) (packet : List UInt8) : List UInt8 :=
  match regionRequest packet, maps with
  | some address, some maps => regionReply (regionAt maps address)
  | _, _ => errPacket 1

/-- The region contains the address and lies in a map with its permissions, or in none. -/
structure RegionExact (maps : List NamedMap) (address : Nat) (r : Region) : Prop where
  contains : r.start ≤ address ∧ address < r.start + r.size
  mapped : (∃ m ∈ maps, m.Contains address) → ∃ m ∈ maps, m.Contains address ∧
    m.start ≤ r.start ∧ r.start + r.size ≤ m.stop ∧ r.permissions = permissions m.protection
  unmapped : (¬∃ m ∈ maps, m.Contains address) →
    ∀ x, r.start ≤ x → x < r.start + r.size → ∀ m ∈ maps, ¬m.Contains x

def walk (maps : List NamedMap) : Nat → Nat
  | 0 => 0
  | n + 1 => (regionAt maps (walk maps n)).start + (regionAt maps (walk maps n)).size

section

variable (maps : List NamedMap)

theorem nextStart_spec (address : Nat) :
    (nextStart maps address = maxU64 ∨ address < nextStart maps address) ∧
      nextStart maps address ≤ maxU64 ∧
      ∀ m ∈ maps, address < m.start → nextStart maps address ≤ m.start := by
  unfold nextStart
  suffices hfold : ∀ (maps : List NamedMap) (next : Nat), (next = maxU64 ∨ address < next) →
      next ≤ maxU64 → ∀ last, last = maps.foldl (fun next m =>
        if m.start > address ∧ m.start < next then m.start else next) next →
      (last = maxU64 ∨ address < last) ∧ last ≤ next ∧
        ∀ m ∈ maps, address < m.start → last ≤ m.start by
    obtain ⟨hbehind, hle, hall⟩ := hfold maps maxU64 (.inl rfl) (Nat.le_refl _) _ rfl
    exact ⟨hbehind, hle, hall⟩
  intro maps
  induction maps with
  | nil =>
    rintro next hnext - last rfl
    exact ⟨hnext, Nat.le_refl _, nofun⟩
  | cons m maps ih =>
    intro next hnext hle last hlast
    rw [foldl_cons] at hlast
    split_ifs at hlast with hstart
    · obtain ⟨hbehind, hlast, hall⟩ := ih _ (.inr hstart.1) m.start_le last hlast
      refine ⟨hbehind, by omega, fun m' hm' => ?_⟩
      obtain rfl | hm' := mem_cons.mp hm'
      · exact fun _ => hlast
      · exact hall m' hm'
    · obtain ⟨hbehind, hlast, hall⟩ := ih _ hnext hle last hlast
      refine ⟨hbehind, hlast, fun m' hm' hlt => ?_⟩
      obtain rfl | hm' := mem_cons.mp hm'
      · omega
      · exact hall m' hm' hlt

variable {maps}

theorem contains_of_find? {address : Nat} {m : NamedMap}
    (h : maps.find? (fun m => m.Contains address) = some m) : m ∈ maps ∧ m.Contains address := by
  have hin := find?_some h
  exact ⟨mem_of_find?_eq_some h, of_decide_eq_true hin⟩

theorem regionAt_bounds {address : Nat} (h : address ≤ maxU64) :
    (regionAt maps address).start ≤ address ∧
      (address < maxU64 →
        address < (regionAt maps address).start + (regionAt maps address).size) ∧
      (regionAt maps address).start + (regionAt maps address).size ≤ maxU64 := by
  unfold regionAt
  split
  · next m hfind =>
      have hin := (contains_of_find? hfind).2
      have hstop := m.stop_le
      unfold MapEntry.Contains at hin
      dsimp only
      omega
  · obtain ⟨hbehind, hle, -⟩ := nextStart_spec maps address
    dsimp only
    split_ifs <;> omega

theorem regionAt_last :
    (regionAt maps maxU64).start = maxU64 ∧ (regionAt maps maxU64).size = 0 := by
  unfold regionAt
  split
  · next m hfind =>
      have hin := (contains_of_find? hfind).2
      have hstop := m.stop_le
      unfold MapEntry.Contains at hin
      omega
  · obtain ⟨hbehind, hle, -⟩ := nextStart_spec maps maxU64
    refine ⟨rfl, ?_⟩
    dsimp only
    split_ifs <;> omega

theorem regionAt_mapped {address : Nat} (h : ∃ m ∈ maps, m.Contains address) :
    ∃ m ∈ maps, m.Contains address ∧ m.start ≤ (regionAt maps address).start ∧
      (regionAt maps address).start + (regionAt maps address).size ≤ m.stop ∧
      (regionAt maps address).permissions = permissions m.protection := by
  unfold regionAt
  split
  · next m hfind =>
      obtain ⟨hm, hin⟩ := contains_of_find? hfind
      refine ⟨m, hm, hin, Nat.le_refl _, ?_, rfl⟩
      exact Nat.le_of_eq (Nat.add_sub_of_le (Nat.le_of_lt (Nat.lt_of_le_of_lt hin.1 hin.2)))
  · next hfind =>
      obtain ⟨m, hm, hin⟩ := h
      exact absurd (decide_eq_true hin) (find?_eq_none.mp hfind m hm)

theorem regionAt_unmapped {address : Nat}
    (h : ¬∃ m ∈ maps, m.Contains address) {x : Nat} (hstart : (regionAt maps address).start ≤ x)
    (hend : x < (regionAt maps address).start + (regionAt maps address).size) :
    ∀ m ∈ maps, ¬m.Contains x := by
  intro m hm hin
  unfold regionAt at hstart hend
  split at hstart
  · next m' hfind =>
      exact h ⟨m', contains_of_find? hfind⟩
  · next hfind =>
      rw [hfind] at hend
      dsimp only at hstart hend
      obtain ⟨hbehind, hle, hall⟩ := nextStart_spec maps address
      have hnot : ¬m.Contains address := fun hcontains => h ⟨m, hm, hcontains⟩
      unfold MapEntry.Contains at hin hnot
      have hnext := hall m hm (by omega)
      split_ifs at hend <;> omega

theorem regionExact_iff {address : Nat} (h : address ≤ maxU64) :
    RegionExact maps address (regionAt maps address) ↔ address ≠ maxU64 := by
  refine ⟨?_, fun hne => ?_⟩
  · rintro hexact rfl
    have hcontains := hexact.contains
    obtain ⟨hstart, hsize⟩ := @regionAt_last maps
    omega
  · obtain ⟨hstart, hend, -⟩ := @regionAt_bounds maps address h
    exact ⟨⟨hstart, hend (by omega)⟩, regionAt_mapped, fun hnot x => regionAt_unmapped hnot⟩

/-! ## The walk -/

theorem walk_le (n : Nat) : walk maps n ≤ maxU64 := by
  cases n with
  | zero => exact Nat.zero_le _
  | succ n =>
    induction n with
    | zero => exact (regionAt_bounds (Nat.zero_le _)).2.2
    | succ n ih => exact (regionAt_bounds ih).2.2

theorem walk_lt {n : Nat} (h : walk maps n < maxU64) : walk maps n < walk maps (n + 1) :=
  (regionAt_bounds (walk_le n)).2.1 h

theorem le_walk (n : Nat) : n ≤ walk maps n ∨ walk maps n = maxU64 := by
  induction n with
  | zero => exact .inl (Nat.zero_le _)
  | succ n ih =>
    have hle := @walk_le maps n
    rcases Nat.lt_or_ge (walk maps n) maxU64 with hlt | hge
    · have hstep := walk_lt hlt
      omega
    · have hlast := Nat.le_antisymm hle hge
      obtain ⟨hstart, hsize⟩ := @regionAt_last maps
      rw [walk, hlast, hstart, hsize]
      exact .inr rfl

theorem exists_walk {x : Nat} (h : x < maxU64) :
    ∃ n, walk maps n ≤ x ∧ x < walk maps (n + 1) := by
  have hpast : ∃ n, x < walk maps n := by
    refine ⟨x + 1, ?_⟩
    have hle := @le_walk maps (x + 1)
    omega
  obtain ⟨n, hn⟩ := hpast
  induction n with
  | zero => exact absurd hn (Nat.not_lt_zero x)
  | succ n ih =>
    rcases Nat.lt_or_ge x (walk maps n) with hlt | hge
    · exact ih hlt
    · exact ⟨n, hge, hn⟩

/-- Each reply is exact but the one for the last address; so the walk visits each mapped byte, and
ends at the last address for ever. -/
theorem memoryRegionInfo_exact_iff (maps : List NamedMap) (address : UInt64) :
    (RegionExact maps address.toNat (regionAt maps address.toNat) ↔ address.toNat ≠ maxU64) ∧
    (∀ packet, regionRequest packet = some address.toNat →
      memoryRegionInfo (some maps) packet = regionReply (regionAt maps address.toNat)) ∧
    (∀ m ∈ maps, ∀ x, m.Contains x → ∃ n, (regionAt maps (walk maps n)).start ≤ x ∧
      x < (regionAt maps (walk maps n)).start + (regionAt maps (walk maps n)).size) ∧
    (∃ n, walk maps n = maxU64) ∧ ∀ n, walk maps n ≠ 2 ^ 64 := by
  refine ⟨@regionExact_iff maps address.toNat (Nat.le_pred_of_lt address.toNat_lt),
    fun packet hpacket => ?_,
    fun m hm x hx => ?_, ⟨maxU64, ?_⟩, fun n hn => ?_⟩
  · unfold memoryRegionInfo
    rw [hpacket]
  · have hstop := m.stop_le
    obtain ⟨n, hle, hlt⟩ := @exists_walk maps x (Nat.lt_of_lt_of_le hx.2 hstop)
    exact ⟨n, Nat.le_trans (regionAt_bounds (walk_le n)).1 hle, hlt⟩
  · have hle := @le_walk maps maxU64
    have hlast := @walk_le maps maxU64
    omega
  · have hlast := @walk_le maps n
    rw [hn, maxU64] at hlast
    omega

def oneMap : List NamedMap := [⟨⟨16, 32⟩, 5, [97], by decide, by decide⟩]

theorem memoryRegionInfo_exact_iff_one :
    regionAt oneMap 17 = ⟨16, 16, [114, 120], [97]⟩ ∧
      RegionExact oneMap (17 : UInt64).toNat (regionAt oneMap (17 : UInt64).toNat) :=
  ⟨by decide, (memoryRegionInfo_exact_iff oneMap 17).1.mpr (by decide)⟩

theorem memoryRegionInfo_last : ¬∀ (maps : List NamedMap) (address : UInt64),
    RegionExact maps address.toNat (regionAt maps address.toNat) := by
  intro h
  exact absurd (h [] 0xffffffffffffffff).contains (by decide)

end

end MemDbg.Gdb
