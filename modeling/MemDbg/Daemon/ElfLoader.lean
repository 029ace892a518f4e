import MemDbg.Core.Status
import MemDbg.Lib.Bytes
import MemDbg.Lib.LittleEndian

/-!
# The ELF loader

`memdbg_elf_load_enhanced` of the PS5 build, as the accesses it makes: which bytes
of the image it reads, and which target memory it writes, maps or reprotects.
Every offset and count comes from the image, and none of them is checked against
it; `loadsInside_iff` states what an image has to satisfy for the loader to stay
inside the image and inside the memory reserved for it.
-/

namespace MemDbg.Daemon.Elf

open List Lib

structure Image where
  bytes : Nat → UInt8
  size : Nat
  size_le : size ≤ 64 * 2 ^ 20

inductive Access where
  | read (off len : Nat)
  | write (addr len : Nat)
  | protect (addr len : Nat)
  | map (addr len : Nat)
deriving DecidableEq

def pageSize : Nat := 0x4000

def roundUp (n : Nat) : Nat := wrap64 (n + (pageSize - 1)) / pageSize * pageSize

def roundDown (n : Nat) : Nat := n / pageSize * pageSize

namespace Image

variable (img : Image)

def number (off width : Nat) : Nat := leNat (slice img.bytes off width)

def ePhoff : Nat := img.number 0x20 8
def eShoff : Nat := img.number 0x28 8
def ePhnum : Nat := img.number 0x38 2
def eShnum : Nat := img.number 0x3C 2

def ph (i : Nat) : Nat := img.ePhoff + i * 56
def pType (i : Nat) : Nat := img.number (img.ph i) 4
def pFlags (i : Nat) : Nat := img.number (img.ph i + 4) 4
def pOffset (i : Nat) : Nat := img.number (img.ph i + 8) 8
def pVaddr (i : Nat) : Nat := img.number (img.ph i + 16) 8
def pMemsz (i : Nat) : Nat := img.number (img.ph i + 40) 8

def sh (i : Nat) : Nat := img.eShoff + i * 64
def shType (i : Nat) : Nat := img.number (img.sh i + 4) 4
def shOffset (i : Nat) : Nat := img.number (img.sh i + 0x18) 8
def shSize (i : Nat) : Nat := img.number (img.sh i + 0x20) 8

def rela (i j field : Nat) : Nat := wrap64 (img.shOffset i + j * 24 + field)
def rOffset (i j : Nat) : Nat := img.number (img.rela i j 0) 8
def rType (i j : Nat) : Nat := img.number (img.rela i j 8) 4

def magic : Prop :=
  img.bytes 0 = 0x7F ∧ img.bytes 1 = 0x45 ∧ img.bytes 2 = 0x4C ∧ img.bytes 3 = 0x46

instance : Decidable img.magic := inferInstanceAs (Decidable (_ ∧ _ ∧ _ ∧ _))

/-- The image passes the checks of the loader. -/
structure Accepted : Prop where
  size_ge : 52 ≤ img.size
  magic : img.magic
  ePhoff_le : img.ePhoff ≤ img.size
  eShoff_le : img.eShoff ≤ img.size

def Loads (i : Nat) : Prop := img.pType i = 1 ∧ img.pMemsz i ≠ 0

instance (i : Nat) : Decidable (img.Loads i) := inferInstanceAs (Decidable (_ ∧ _))

def loaded : List Nat := (List.range img.ePhnum).filter fun i => img.Loads i

def minAddr : Nat := (img.loaded.map img.pVaddr).foldl min (2 ^ 64 - 1)

def maxAddr : Nat := (img.loaded.map fun i => wrap64 (img.pVaddr i + img.pMemsz i)).foldl max 0

def minAligned : Nat := roundDown img.minAddr

def totalSize : Nat := sub64 (roundUp img.maxAddr) img.minAligned

end Image

/-! ## Reservations -/

structure Region where
  name : List UInt8
  start : UInt64
  stop : UInt64

inductive Target where
  | fresh
  | existing (regionNameMatches : List UInt8 → Bool) (maps : Option (List Region))

/-- What the target answers while segment `i` is loaded. -/
structure Outcome where
  alloc : Option UInt64
  wrote : Nat → Nat
  shmCreate : Nat → Bool
  shmAlias : Nat → Bool
  exeAddr : Nat → Nat
  rwAddr : Nat → Nat

structure Reservation where
  start : Nat
  size : Nat
  base : Nat

/-- The size of the reservation and the distance of `base` from its start, as far as
the image and the maps decide them.  `pal_memory_alloc` refuses a length of zero. -/
def Target.window (img : Image) : Target → Option (Nat × Nat)
  | .fresh => if img.totalSize = 0 then none else some (img.totalSize, 0)
  | .existing matching maps => do
    let region ← (← maps).find? fun r => matching r.name
    if region.start = 0 ∨ region.stop ≤ region.start then none
    else if region.stop.toNat - region.start.toNat < img.totalSize then none
    else some (region.stop.toNat - region.start.toNat, img.minAligned)

def Target.start (out : Outcome) : Target → Option Nat
  | .fresh => out.alloc.map UInt64.toNat
  | .existing matching maps => do
    let region ← (← maps).find? fun r => matching r.name
    return region.start.toNat

def Target.reserve (img : Image) (out : Outcome) (tgt : Target) : Option Reservation := do
  let (size, bias) ← tgt.window img
  let start ← tgt.start out
  return ⟨start, size, wrap64 (start + bias)⟩

def Target.useExistingRegion : Target → Bool
  | .fresh => false
  | .existing _ _ => true

/-! ## The loader -/

section Loader

variable (img : Image) (tgt : Target) (out : Outcome) (res : Reservation)

def headerReads : List Access :=
  [.read 0 4, .read 0x18 8, .read 0x20 8, .read 0x28 8, .read 0x10 2, .read 0x38 2, .read 0x3C 2]

def phdrReads (fields : List Access) (i : Nat) : List Access :=
  .read (img.ph i) 4 ::
    if img.pType i = 1 then .read (img.ph i + 40) 8 :: if img.pMemsz i ≠ 0 then fields else []
    else []

def rangeReads (i : Nat) : List Access := phdrReads img [.read (img.ph i + 16) 8] i

def tgtAddr (i : Nat) : Nat := wrap64 (res.base + img.pVaddr i)

def loadSegment (i : Nat) : List Access × Bool :=
  let reads := phdrReads img
    [.read (img.ph i + 4) 4, .read (img.ph i + 8) 8, .read (img.ph i + 16) 8] i
  let addr := tgtAddr img res i
  let aligned := roundUp (img.pMemsz i)
  let contents := Access.read (img.pOffset i) (img.pMemsz i)
  if ¬img.Loads i then (reads, true)
  else if img.pFlags i % 2 = 1 then
    if tgt.useExistingRegion then
      (reads ++
        [.protect addr aligned, contents, .write addr (img.pMemsz i), .protect addr aligned],
        out.wrote i = img.pMemsz i)
    else if out.shmCreate i = false then (reads, true)
    else if out.exeAddr i ≠ addr then (reads ++ [.map addr aligned], false)
    else if out.shmAlias i = false then (reads ++ [.map addr aligned], false)
    else (reads ++ [.map addr aligned, contents, .write (out.rwAddr i) (img.pMemsz i)], true)
  else (reads ++ [contents, .write addr (img.pMemsz i)], true)

def loadSegments : List Nat → List Access × Bool
  | [] => ([], true)
  | i :: rest =>
    let (accesses, goesOn) := loadSegment img tgt out res i
    if goesOn then (accesses ++ (loadSegments rest).1, (loadSegments rest).2)
    else (accesses, false)

def relocate (i j : Nat) : List Access :=
  .read (img.rela i j 8) 4 ::
    if img.rType i j = 8 then
      [.read (img.rela i j 0) 8, .read (img.rela i j 16) 8,
        .write (wrap64 (res.base + img.rOffset i j)) 8]
    else []

def relocateSection (i : Nat) : List Access :=
  .read (img.sh i + 4) 4 ::
    if img.shType i = 4 then
      .read (img.sh i + 0x20) 8 ::
        if 24 ≤ img.shSize i then
          .read (img.sh i + 0x18) 8 ::
            (List.range (img.shSize i / 24)).flatMap (relocate img res i)
        else []
    else []

def protectSegment (i : Nat) : List Access :=
  phdrReads img [.read (img.ph i + 4) 4, .read (img.ph i + 16) 8,
    .protect (tgtAddr img res i) (roundUp (img.pMemsz i))] i

def loadReserved : List Access :=
  let (accesses, complete) := loadSegments img tgt out res (List.range img.ePhnum)
  accesses ++
    if complete then
      (List.range img.eShnum).flatMap (relocateSection img res) ++
        (List.range img.ePhnum).flatMap (protectSegment img res)
    else []

def elfLoadEnhanced : List Access :=
  if img.size < 52 ∨ ¬img.magic then []
  else headerReads ++
    if img.size < img.ePhoff ∨ img.size < img.eShoff then []
    else (List.range img.ePhnum).flatMap (rangeReads img) ++
      match tgt.reserve img out with
      | none => []
      | some res => loadReserved img tgt out res

end Loader

/-! ## Staying inside -/

def Reservation.Contains (res : Reservation) (addr len : Nat) : Prop :=
  len = 0 ∨ sub64 addr res.start + len ≤ res.size

def Access.Inside (size : Nat) (res : Option Reservation) : Access → Prop
  | .read off len => off + len ≤ size
  | .write addr len | .protect addr len | .map addr len => ∃ r ∈ res, r.Contains addr len

/-- Whatever the target answers, the loader reads inside the image and writes, maps
and reprotects inside the reservation. -/
def LoadsInside (img : Image) (tgt : Target) : Prop :=
  ∀ out, ∀ a ∈ elfLoadEnhanced img tgt out, a.Inside img.size (tgt.reserve img out)

def Image.PhdrInside (img : Image) (i : Nat) : Prop :=
  img.ph i + 4 ≤ img.size ∧ (img.pType i = 1 → img.ph i + 48 ≤ img.size)

structure Image.SegmentFits (img : Image) (tgt : Target) (size bias i : Nat) : Prop where
  contents : img.pOffset i + img.pMemsz i ≤ img.size
  pages : wrap64 (bias + img.pVaddr i) + roundUp (img.pMemsz i) ≤ size
  plain : tgt.useExistingRegion = false → img.pFlags i % 2 ≠ 1

def Image.RelocationFits (img : Image) (size bias i j : Nat) : Prop :=
  img.rela i j 8 + 4 ≤ img.size ∧
    (img.rType i j = 8 → img.rela i j 0 + 8 ≤ img.size ∧ img.rela i j 16 + 8 ≤ img.size ∧
      wrap64 (bias + img.rOffset i j) + 8 ≤ size)

def Image.SectionFits (img : Image) (size bias i : Nat) : Prop :=
  img.sh i + 8 ≤ img.size ∧
    (img.shType i = 4 → img.sh i + 0x28 ≤ img.size ∧
      ∀ j < img.shSize i / 24, img.RelocationFits size bias i j)

/-- What the loader does not check. -/
structure Image.Fits (img : Image) (tgt : Target) : Prop where
  header : 62 ≤ img.size
  phdrs : ∀ i < img.ePhnum, img.PhdrInside i
  segments : ∀ size bias, tgt.window img = some (size, bias) →
    ∀ i < img.ePhnum, img.Loads i → img.SegmentFits tgt size bias i
  sections : ∀ size bias, tgt.window img = some (size, bias) →
    ∀ i < img.eShnum, img.SectionFits size bias i

/-! ## Reservations and their windows -/

theorem sub64_wrap64_base {start : Nat} (h : start < 2 ^ 64) (bias v : Nat) :
    sub64 (wrap64 (wrap64 (start + bias) + v)) start = wrap64 (bias + v) := by
  unfold sub64 wrap64
  omega

section Reserve

variable {img : Image} {tgt : Target} {out : Outcome} {res : Reservation} {size bias : Nat}

theorem Target.start_lt {start : Nat} (h : tgt.start out = some start) : start < 2 ^ 64 := by
  cases tgt with
  | fresh =>
    obtain ⟨b, -, rfl⟩ := Option.map_eq_some_iff.mp h
    exact b.toNat_lt
  | existing matching maps =>
    obtain ⟨maps, -, h⟩ := Option.bind_eq_some_iff.mp h
    obtain ⟨region, -, h⟩ := Option.bind_eq_some_iff.mp h
    obtain rfl := Option.some.inj h
    exact region.start.toNat_lt

structure Reservation.Spans (res : Reservation) (size bias : Nat) : Prop where
  size_eq : res.size = size
  start_lt : res.start < 2 ^ 64
  base_eq : res.base = wrap64 (res.start + bias)

theorem Target.reserve_eq_some (h : tgt.reserve img out = some res) :
    ∃ size bias, tgt.window img = some (size, bias) ∧ res.Spans size bias := by
  obtain ⟨⟨size, bias⟩, hwindow, h⟩ := Option.bind_eq_some_iff.mp h
  obtain ⟨start, hstart, h⟩ := Option.bind_eq_some_iff.mp h
  obtain rfl := Option.some.inj h
  exact ⟨size, bias, hwindow, rfl, start_lt hstart, rfl⟩

theorem Reservation.Spans.contains_iff (h : res.Spans size bias) {len : Nat} (hlen : len ≠ 0)
    (v : Nat) :
    res.Contains (wrap64 (res.base + v)) len ↔ wrap64 (bias + v) + len ≤ size := by
  rw [Contains, h.base_eq, sub64_wrap64_base h.start_lt, h.size_eq]
  exact or_iff_right hlen

end Reserve

/-! ## Images that fit -/

section Fits

variable {img : Image} {tgt : Target} {out : Outcome} {res : Reservation} {size bias : Nat}

theorem le_roundUp {n : Nat} (h : n ≤ 64 * 2 ^ 20) : n ≤ roundUp n := by
  have hwrap : wrap64 (n + (pageSize - 1)) = n + (pageSize - 1) :=
    wrap64_of_lt (by have : pageSize - 1 = 16383 := rfl; omega)
  have : n + (pageSize - 1) < (n + (pageSize - 1)) / pageSize * pageSize + pageSize :=
    Nat.lt_div_mul_add (by decide)
  rw [roundUp, hwrap]
  omega

variable {i : Nat}

theorem inside_phdrReads {fields : List Access} {r : Option Reservation}
    (hph : img.PhdrInside i) (hfields : img.Loads i → ∀ a ∈ fields, a.Inside img.size r) :
    ∀ a ∈ phdrReads img fields i, a.Inside img.size r := by
  refine forall_mem_cons.mpr ⟨hph.1, ?_⟩
  split_ifs with htype hmemsz
  · exact forall_mem_cons.mpr ⟨hph.2 htype, hfields ⟨htype, hmemsz⟩⟩
  · exact forall_mem_cons.mpr ⟨hph.2 htype, by simp⟩
  · simp

theorem inside_field {i field len : Nat} {r : Option Reservation} (hph : img.PhdrInside i)
    (hload : img.Loads i) (h : field + len ≤ 48) :
    (Access.read (img.ph i + field) len).Inside img.size r := by
  have := hph.2 hload.1
  simp only [Access.Inside]
  omega

theorem inside_loadSegment (hph : img.PhdrInside i) (hres : res.Spans size bias)
    (hseg : img.Loads i → img.SegmentFits tgt size bias i) :
    ∀ a ∈ (loadSegment img tgt out res i).1, a.Inside img.size (some res) := by
  have hreads : ∀ a ∈ phdrReads img
      [.read (img.ph i + 4) 4, .read (img.ph i + 8) 8, .read (img.ph i + 16) 8] i,
      a.Inside img.size (some res) := by
    refine inside_phdrReads hph fun hload => ?_
    simp only [forall_mem_cons]
    exact ⟨inside_field hph hload (by decide), inside_field hph hload (by decide),
      inside_field hph hload (by decide), by simp⟩
  by_cases hload : img.Loads i
  · have hfits := hseg hload
    have hsize : img.pMemsz i ≤ 64 * 2 ^ 20 := by
      have := hfits.contents
      have := img.size_le
      omega
    have hround := le_roundUp hsize
    have hne := hload.2
    have hpages : (Access.protect (tgtAddr img res i) (roundUp (img.pMemsz i))).Inside img.size
        (some res) :=
      ⟨res, rfl, (hres.contains_iff (by omega) _).mpr hfits.pages⟩
    have hwrite : (Access.write (tgtAddr img res i) (img.pMemsz i)).Inside img.size (some res) := by
      refine ⟨res, rfl, (hres.contains_iff hne _).mpr ?_⟩
      have := hfits.pages
      omega
    have hcontents : (Access.read (img.pOffset i) (img.pMemsz i)).Inside img.size (some res) :=
      hfits.contents
    simp only [loadSegment, hload, not_true_eq_false, ↓reduceIte]
    split_ifs with hexec hexisting
    · simp only [forall_mem_append, forall_mem_cons]
      exact ⟨hreads, hpages, hcontents, hwrite, hpages, by simp⟩
    all_goals first
      | exact absurd hexec (hfits.plain (by simpa using hexisting))
      | simp only [forall_mem_append, forall_mem_cons]
        exact ⟨hreads, hcontents, hwrite, by simp⟩
  · simpa [loadSegment, hload] using hreads

theorem mem_loadSegments {is : List Nat} {a : Access}
    (h : a ∈ (loadSegments img tgt out res is).1) :
    ∃ i ∈ is, a ∈ (loadSegment img tgt out res i).1 := by
  induction is with
  | nil => simp [loadSegments] at h
  | cons i is ih =>
    simp only [loadSegments] at h
    split_ifs at h
    · obtain h | h := mem_append.mp h
      · exact ⟨i, mem_cons_self, h⟩
      · obtain ⟨k, hk, ha⟩ := ih h
        exact ⟨k, mem_cons_of_mem _ hk, ha⟩
    · exact ⟨i, mem_cons_self, h⟩

theorem inside_relocateSection (hres : res.Spans size bias) (hsect : img.SectionFits size bias i) :
    ∀ a ∈ relocateSection img res i, a.Inside img.size (some res) := by
  obtain ⟨hsh, hrela⟩ := hsect
  refine forall_mem_cons.mpr ⟨by simp only [Access.Inside]; omega, ?_⟩
  split_ifs with htype hsize
  · obtain ⟨hheader, hrela⟩ := hrela htype
    refine forall_mem_cons.mpr ⟨by simp only [Access.Inside]; omega, ?_⟩
    refine forall_mem_cons.mpr ⟨by simp only [Access.Inside]; omega, ?_⟩
    simp only [mem_flatMap, mem_range]
    rintro a ⟨j, hj, ha⟩
    obtain ⟨hrtype, hrelative⟩ := hrela j hj
    revert a
    refine forall_mem_cons.mpr ⟨hrtype, ?_⟩
    split_ifs with hkind
    · obtain ⟨hoffset, haddend, htarget⟩ := hrelative hkind
      simp only [forall_mem_cons]
      exact ⟨hoffset, haddend, ⟨res, rfl, (hres.contains_iff (by decide) _).mpr htarget⟩, by simp⟩
    · simp
  · refine forall_mem_cons.mpr ⟨?_, by simp⟩
    have := (hrela htype).1
    simp only [Access.Inside]
    omega
  · simp

theorem inside_protectSegment (hph : img.PhdrInside i) (hres : res.Spans size bias)
    (hseg : img.Loads i → img.SegmentFits tgt size bias i) :
    ∀ a ∈ protectSegment img res i, a.Inside img.size (some res) := by
  refine inside_phdrReads hph fun hload => ?_
  simp only [forall_mem_cons]
  refine ⟨inside_field hph hload (by decide), inside_field hph hload (by decide), ⟨res, rfl, ?_⟩,
    by simp⟩
  have hfits := hseg hload
  by_cases hzero : roundUp (img.pMemsz i) = 0
  · exact .inl hzero
  · exact (hres.contains_iff hzero _).mpr hfits.pages

theorem Image.Fits.loadsInside (hfits : img.Fits tgt) : LoadsInside img tgt := by
  intro out
  unfold elfLoadEnhanced
  split_ifs with hbad hoffsets
  · simp
  · have := hfits.header
    simp only [headerReads, append_nil, forall_mem_cons, Access.Inside]
    exact ⟨by omega, by omega, by omega, by omega, by omega, by omega, by omega, by simp⟩
  · rw [forall_mem_append, forall_mem_append]
    refine ⟨?_, ?_, ?_⟩
    · have := hfits.header
      simp only [headerReads, forall_mem_cons, Access.Inside]
      exact ⟨by omega, by omega, by omega, by omega, by omega, by omega, by omega, by simp⟩
    · simp only [mem_flatMap, mem_range]
      rintro a ⟨i, hi, ha⟩
      have hph := hfits.phdrs i hi
      exact inside_phdrReads hph
        (fun hload => by simpa using inside_field hph hload (by decide)) a ha
    · cases hreserve : tgt.reserve img out with
      | none => simp
      | some res =>
        obtain ⟨size, bias, hwindow, hres⟩ := Target.reserve_eq_some hreserve
        have hsegments := hfits.segments size bias hwindow
        have hsections := hfits.sections size bias hwindow
        rintro a ha
        obtain ha | ha := mem_append.mp ha
        · obtain ⟨i, hi, ha⟩ := mem_loadSegments ha
          have hi := mem_range.mp hi
          exact inside_loadSegment (hfits.phdrs i hi) hres (hsegments i hi) a ha
        · split_ifs at ha
          · obtain ha | ha := mem_append.mp ha
            · obtain ⟨i, hi, ha⟩ := mem_flatMap.mp ha
              exact inside_relocateSection hres (hsections i (mem_range.mp hi)) a ha
            · obtain ⟨i, hi, ha⟩ := mem_flatMap.mp ha
              have hi := mem_range.mp hi
              exact inside_protectSegment (hfits.phdrs i hi) hres (hsegments i hi) a ha
          · simp at ha

end Fits

/-! ## Images that are loaded inside -/

section Inside

variable {img : Image} {tgt : Target} {res : Reservation} {size bias : Nat}

def obliging (img : Image) : Outcome where
  alloc := some 0
  wrote := img.pMemsz
  shmCreate _ := true
  shmAlias _ := true
  exeAddr i := wrap64 (img.pVaddr i)
  rwAddr _ := img.totalSize

theorem totalSize_lt : img.totalSize < 2 ^ 64 := Nat.mod_lt _ (by decide)

theorem reserve_obliging (h : tgt.window img = some (size, bias)) :
    ∃ res, tgt.reserve img (obliging img) = some res ∧ res.Spans size bias := by
  have hstart : ∃ start, tgt.start (obliging img) = some start := by
    cases tgt with
    | fresh => exact ⟨0, rfl⟩
    | existing matching maps =>
      obtain ⟨maps, rfl, h⟩ := Option.bind_eq_some_iff.mp h
      obtain ⟨region, hregion, -⟩ := Option.bind_eq_some_iff.mp h
      exact ⟨region.start.toNat, by simp [Target.start, hregion]⟩
  obtain ⟨start, hstart⟩ := hstart
  exact ⟨⟨start, size, wrap64 (start + bias)⟩, by simp [Target.reserve, h, hstart],
    rfl, Target.start_lt hstart, rfl⟩

theorem reserve_obliging_fresh (h : Target.fresh.reserve img (obliging img) = some res) :
    res = ⟨0, img.totalSize, 0⟩ := by
  obtain ⟨⟨size, bias⟩, hwindow, h⟩ := Option.bind_eq_some_iff.mp h
  rw [Target.window] at hwindow
  split_ifs at hwindow
  obtain ⟨rfl, rfl⟩ := Prod.mk.inj (Option.some.inj hwindow)
  simpa [Target.start, obliging, wrap64] using h.symm

theorem loadSegment_obliging (h : tgt.reserve img (obliging img) = some res) (i : Nat) :
    (loadSegment img tgt (obliging img) res i).2 = true := by
  cases tgt with
  | fresh =>
    obtain rfl := reserve_obliging_fresh h
    simp only [loadSegment, obliging, tgtAddr, Target.useExistingRegion, Nat.zero_add]
    split_ifs <;> simp_all
  | existing matching maps =>
    simp only [loadSegment, obliging, Target.useExistingRegion]
    split_ifs <;> simp

theorem loadSegments_obliging (h : tgt.reserve img (obliging img) = some res) (is : List Nat) :
    loadSegments img tgt (obliging img) res is =
      (is.flatMap fun i => (loadSegment img tgt (obliging img) res i).1, true) := by
  induction is with
  | nil => rfl
  | cons i is ih => simp [loadSegments, loadSegment_obliging h, ih]

theorem elfLoadEnhanced_of_accepted (hacc : img.Accepted) (out : Outcome) :
    elfLoadEnhanced img tgt out = headerReads ++
      ((List.range img.ePhnum).flatMap (rangeReads img) ++
      match tgt.reserve img out with
      | none => []
      | some res => loadReserved img tgt out res) := by
  have hlate : ¬(img.size < 52 ∨ ¬img.magic) := by
    rintro (h | h)
    · exact absurd hacc.size_ge (by omega)
    · exact h hacc.magic
  have hoffsets : ¬(img.size < img.ePhoff ∨ img.size < img.eShoff) := by
    have := hacc.ePhoff_le
    have := hacc.eShoff_le
    omega
  rw [elfLoadEnhanced, if_neg hlate, if_neg hoffsets]

theorem mem_elfLoadEnhanced_obliging (hacc : img.Accepted) {a : Access}
    (h : tgt.reserve img (obliging img) = some res)
    (ha : (∃ i < img.ePhnum, a ∈ (loadSegment img tgt (obliging img) res i).1) ∨
      (∃ i < img.eShnum, a ∈ relocateSection img res i) ∨
      ∃ i < img.ePhnum, a ∈ protectSegment img res i) :
    a ∈ elfLoadEnhanced img tgt (obliging img) := by
  simp only [elfLoadEnhanced_of_accepted hacc, h, loadReserved, loadSegments_obliging h, ↓reduceIte,
    mem_append, mem_flatMap, mem_range]
  exact .inr (.inr ha)

theorem LoadsInside.phdrInside (hinside : LoadsInside img tgt) (hacc : img.Accepted)
    (hi : i < img.ePhnum) : img.PhdrInside i := by
  have hreads : ∀ a ∈ rangeReads img i, a.Inside img.size (tgt.reserve img (obliging img)) := by
    intro a ha
    refine hinside _ a ?_
    simp only [elfLoadEnhanced_of_accepted hacc, mem_append, mem_flatMap, mem_range]
    exact .inr (.inl ⟨i, hi, ha⟩)
  refine ⟨hreads (.read (img.ph i) 4) mem_cons_self, fun htype => ?_⟩
  exact hreads (.read (img.ph i + 40) 8) (by simp [rangeReads, phdrReads, htype])

theorem Reservation.not_contains_behind {n len : Nat} (hn : n < 2 ^ 64) (hlen : len ≠ 0) :
    ¬(⟨0, n, 0⟩ : Reservation).Contains n len := by
  rintro (hzero | hle)
  · exact hlen hzero
  · rw [sub64_of_le (Nat.zero_le _) hn] at hle
    have : n + len ≤ n := hle
    omega

theorem LoadsInside.not_executable (hinside : LoadsInside img tgt) (hacc : img.Accepted)
    (hwindow : tgt.window img = some (size, bias)) (hi : i < img.ePhnum) (hload : img.Loads i)
    (hfresh : tgt.useExistingRegion = false) : img.pFlags i % 2 ≠ 1 := by
  intro hexec
  cases tgt with
  | existing matching maps => cases hfresh
  | fresh =>
    obtain ⟨res, hreserve, -⟩ := reserve_obliging hwindow
    obtain rfl := reserve_obliging_fresh hreserve
    have hmem : Access.write img.totalSize (img.pMemsz i) ∈
        (loadSegment img .fresh (obliging img) ⟨0, img.totalSize, 0⟩ i).1 := by
      simp [loadSegment, hload, hexec, Target.useExistingRegion, obliging, tgtAddr]
    obtain ⟨r, hr, hcontains⟩ :=
      hinside _ _ (mem_elfLoadEnhanced_obliging hacc hreserve (.inl ⟨i, hi, hmem⟩))
    rw [hreserve] at hr
    obtain rfl := Option.mem_some_iff.mp hr
    exact Reservation.not_contains_behind totalSize_lt hload.2 hcontains

theorem LoadsInside.segmentFits (hinside : LoadsInside img tgt) (hacc : img.Accepted)
    (hwindow : tgt.window img = some (size, bias)) (hi : i < img.ePhnum)
    (hload : img.Loads i) : img.SegmentFits tgt size bias i := by
  obtain ⟨res, hreserve, hres⟩ := reserve_obliging hwindow
  have hin : ∀ a ∈ (loadSegment img tgt (obliging img) res i).1, a.Inside img.size (some res) :=
    fun a ha => hreserve ▸ hinside _ a
      (mem_elfLoadEnhanced_obliging hacc hreserve (.inl ⟨i, hi, ha⟩))
  have hprotect : (Access.protect (tgtAddr img res i) (roundUp (img.pMemsz i))).Inside img.size
      (some res) := by
    refine hreserve ▸ hinside _ _ (mem_elfLoadEnhanced_obliging hacc hreserve
      (.inr (.inr ⟨i, hi, ?_⟩)))
    simp [protectSegment, phdrReads, hload.1, hload.2]
  have hplain := hinside.not_executable hacc hwindow hi hload
  have hcontents : (Access.read (img.pOffset i) (img.pMemsz i)).Inside img.size (some res) := by
    refine hin _ ?_
    simp only [loadSegment, hload, not_true_eq_false, ↓reduceIte]
    split_ifs with hexec hexisting
    · simp
    all_goals first
      | exact absurd hexec (hplain (by simpa using hexisting))
      | simp
  refine ⟨hcontents, ?_, hplain⟩
  have hsize : img.pMemsz i ≤ 64 * 2 ^ 20 := by
    have : img.pOffset i + img.pMemsz i ≤ img.size := hcontents
    have := img.size_le
    omega
  have hne := hload.2
  have hround := le_roundUp hsize
  obtain ⟨r, hr, hcontains⟩ := hprotect
  obtain rfl := Option.mem_some_iff.mp hr
  exact (hres.contains_iff (by omega) _).mp hcontains

theorem LoadsInside.sectionFits (hinside : LoadsInside img tgt) (hacc : img.Accepted)
    (hwindow : tgt.window img = some (size, bias)) (hi : i < img.eShnum) :
    img.SectionFits size bias i := by
  obtain ⟨res, hreserve, hres⟩ := reserve_obliging hwindow
  have hin : ∀ a ∈ relocateSection img res i, a.Inside img.size (some res) :=
    fun a ha => hreserve ▸ hinside _ a
      (mem_elfLoadEnhanced_obliging hacc hreserve (.inr (.inl ⟨i, hi, ha⟩)))
  refine ⟨hin (.read (img.sh i + 4) 4) mem_cons_self, fun htype => ⟨?_, fun j hj => ?_⟩⟩
  · exact hin (.read (img.sh i + 0x20) 8) (by simp [relocateSection, htype])
  · have hsize : 24 ≤ img.shSize i := by omega
    have hrela : ∀ a ∈ relocate img res i j, a.Inside img.size (some res) := fun a ha => hin a (by
      simp only [relocateSection, htype, hsize, ↓reduceIte, mem_cons, mem_flatMap,
        mem_range]
      exact .inr (.inr (.inr ⟨j, hj, ha⟩)))
    refine ⟨hrela (.read (img.rela i j 8) 4) mem_cons_self, fun hkind => ⟨?_, ?_, ?_⟩⟩
    · exact hrela (.read (img.rela i j 0) 8) (by simp [relocate, hkind])
    · exact hrela (.read (img.rela i j 16) 8) (by simp [relocate, hkind])
    · obtain ⟨r, hr, hcontains⟩ := hrela (.write (wrap64 (res.base + img.rOffset i j)) 8)
        (by simp [relocate, hkind])
      obtain rfl := Option.mem_some_iff.mp hr
      exact (hres.contains_iff (by decide) _).mp hcontains

/-- **When the loader stays inside.**  An accepted image is loaded inside, whatever
the target answers, exactly if it fits: its headers, contents and relocation tables
lie in the image, its segments and relocation targets in the reservation, and no
segment of a new allocation is executable. -/
theorem loadsInside_iff (hacc : img.Accepted) : LoadsInside img tgt ↔ img.Fits tgt := by
  constructor
  · intro hinside
    refine ⟨?_, fun i hi => hinside.phdrInside hacc hi,
      fun size bias hwindow i hi hload => hinside.segmentFits hacc hwindow hi hload,
      fun size bias hwindow i hi => hinside.sectionFits hacc hwindow hi⟩
    exact hinside (obliging img) (.read 0x3C 2)
      (by simp [elfLoadEnhanced_of_accepted hacc, headerReads])
  · exact fun hfits => hfits.loadsInside

end Inside

/-! ## Two small images -/

def dataImage (vaddr : Nat) : Image where
  bytes i := ([0x7F, 0x45, 0x4C, 0x46] ++ List.replicate 28 0 ++ leBytes 8 64 ++ leBytes 8 0 ++
    List.replicate 8 0 ++ leBytes 2 1 ++ List.replicate 6 0 ++ leBytes 4 1 ++ leBytes 4 6 ++
    leBytes 8 0 ++ leBytes 8 vaddr ++ List.replicate 16 0 ++ leBytes 8 16 ++
    List.replicate 16 0).getD i 0
  size := 128
  size_le := by decide

theorem accepted_dataImage (vaddr : Nat) (h : vaddr = 0 ∨ vaddr = 0x4000) :
    (dataImage vaddr).Accepted := by
  obtain rfl | rfl := h
  · exact ⟨by decide, by decide, by decide, by decide⟩
  · exact ⟨by decide, by decide, by decide, by decide⟩

theorem loadsInside_iff_dataImage : LoadsInside (dataImage 0) .fresh := by
  refine (loadsInside_iff (accepted_dataImage 0 (.inl rfl))).mpr ?_
  have hphnum : (dataImage 0).ePhnum = 1 := by decide
  have hshnum : (dataImage 0).eShnum = 0 := by decide
  refine ⟨by decide, fun i hi => ?_, fun size bias hwindow i hi _ => ?_, fun _ _ _ i hi => ?_⟩
  · obtain rfl : i = 0 := by omega
    exact ⟨by decide, fun _ => by decide⟩
  · obtain rfl : i = 0 := by omega
    have htotal : (dataImage 0).totalSize = 0x4000 := by decide
    rw [Target.window, htotal, if_neg (by decide)] at hwindow
    obtain ⟨rfl, rfl⟩ := Prod.mk.inj (Option.some.inj hwindow)
    exact ⟨by decide, by decide, fun _ => by decide⟩
  · omega

def plainOutcome : Outcome := ⟨some 0x10000, fun _ => 16, fun _ => true, fun _ => true, id, id⟩

theorem dataImage_written_outside :
    (dataImage 0x4000).Accepted ∧
      Access.write 0x14000 16 ∈ elfLoadEnhanced (dataImage 0x4000) .fresh plainOutcome ∧
      Target.fresh.reserve (dataImage 0x4000) plainOutcome = some ⟨0x10000, 0x4000, 0x10000⟩ ∧
      ¬LoadsInside (dataImage 0x4000) .fresh := by
  have hmem : Access.write 0x14000 16 ∈
      elfLoadEnhanced (dataImage 0x4000) .fresh plainOutcome := by decide
  have htotal : (dataImage 0x4000).totalSize = 0x4000 := by decide
  have hreserve : Target.fresh.reserve (dataImage 0x4000) plainOutcome =
      some ⟨0x10000, 0x4000, 0x10000⟩ := by
    simp [Target.reserve, Target.window, Target.start, plainOutcome, htotal, wrap64]
  refine ⟨accepted_dataImage _ (.inr rfl), hmem, hreserve, fun hinside => ?_⟩
  obtain ⟨r, hr, hcontains⟩ := hinside _ _ hmem
  rw [hreserve] at hr
  obtain rfl := Option.mem_some_iff.mp hr
  obtain hzero | hle := hcontains
  · cases hzero
  · exact absurd hle (by decide)

end MemDbg.Daemon.Elf
