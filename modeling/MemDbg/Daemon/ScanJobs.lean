import MemDbg.Daemon.ScanHandlers
import MemDbg.Lib.Transition

/-!
# The scan job registry

The daemon keeps sixteen slots for tracked scans.  A handler thread takes a slot
under the registry lock, scans with a pointer into the slot and without the lock,
and marks the slot finished under the lock before it sends its response; other
threads query and cancel jobs by their id in the meantime.  The system below
interleaves these critical sections arbitrarily.
-/

namespace MemDbg.Daemon

open List Function Lib Scan

/-! ## The registry -/

inductive JobState where
  | pending
  | running
  | completed
  | cancelled
  | failed
deriving DecidableEq

structure JobProgress where
  bytesDone : Nat
  bytesTotal : Nat
  resultsFound : Nat
  mapsDone : Nat
  mapsTotal : Nat
  workersActive : Nat
  workersTotal : Nat
  readErrors : Nat
deriving DecidableEq

def JobProgress.zero : JobProgress := ⟨0, 0, 0, 0, 0, 0, 0, 0⟩

structure ScanJobSlot where
  jobId : Nat
  occupied : Bool
  state : JobState
  progress : JobProgress
  cancelRequested : Bool
deriving DecidableEq

namespace ScanJobSlot

def zero : ScanJobSlot := ⟨0, false, .pending, .zero, false⟩

def begun (jobId : Nat) : ScanJobSlot := ⟨jobId, true, .running, .zero, false⟩

def free (slot : ScanJobSlot) : Bool :=
  !slot.occupied || slot.state = .completed || slot.state = .cancelled || slot.state = .failed

structure Runs (slot : ScanJobSlot) (jobId : Nat) : Prop where
  occupied : slot.occupied = true
  state_eq : slot.state = .running
  jobId_eq : slot.jobId = jobId

theorem Runs.not_free {slot : ScanJobSlot} {jobId : Nat} (h : slot.Runs jobId) :
    slot.free = false := by
  simp [free, h.occupied, h.state_eq]

theorem runs_begun (jobId : Nat) : (begun jobId).Runs jobId := ⟨rfl, rfl, rfl⟩

end ScanJobSlot

def scanJobSlots : Nat := 16

abbrev Registry := Fin scanJobSlots → ScanJobSlot

def scanJobFindLocked (jobs : Registry) (jobId : Nat) : Option (Fin scanJobSlots) :=
  (List.finRange scanJobSlots).find? fun i => (jobs i).occupied && (jobs i).jobId == jobId

def scanJobBegin (jobs : Registry) (jobId : Nat) : Option (Fin scanJobSlots × Registry) :=
  if jobId = 0 then none
  else if (scanJobFindLocked jobs jobId).isSome then none
  else ((List.finRange scanJobSlots).find? fun i => (jobs i).free).map fun i =>
    (i, update jobs i (.begun jobId))

def finalState (cancelRequested : Bool) (status : Status) : JobState :=
  if cancelRequested then .cancelled else if status = .ok then .completed else .failed

def scanJobFinish (jobs : Registry) (i : Fin scanJobSlots) (status : Status) : Registry :=
  if (jobs i).occupied then
    update jobs i
      { jobs i with state := finalState (jobs i).cancelRequested status }
  else jobs

structure JobStatusResponse where
  jobId : Nat
  progress : JobProgress
  state : JobState
deriving DecidableEq

def handleScanJobStatus (jobs : Registry) (jobId : Nat) (cancel : Bool) :
    Except Status JobStatusResponse × Registry :=
  if jobId = 0 then (.error .errParam, jobs)
  else
    match scanJobFindLocked jobs jobId with
    | none => (.error .errNotFound, jobs)
    | some i =>
      (.ok ⟨(jobs i).jobId, (jobs i).progress, (jobs i).state⟩,
        if cancel && (jobs i).state = .running then
          update jobs i { jobs i with cancelRequested := true }
        else jobs)

/-! ## Handler threads -/

inductive Phase where
  | scanning
  | returned (status : Status) (cancelled : Bool)
  | finished (status : Status) (cancelled : Bool) (final : JobState)
deriving DecidableEq

structure Task where
  jobId : Nat
  slot : Fin scanJobSlots
  phase : Phase
deriving DecidableEq

def Task.Active (task : Task) : Prop :=
  ∀ status cancelled final, task.phase ≠ .finished status cancelled final

structure Response where
  jobId : Nat
  status : Status
  flagged : Bool
  final : JobState
deriving DecidableEq

def sendResponse (jobId : Nat) (status : Status) (cancelled : Bool) (final : JobState)
    (payload : Bool) : Response :=
  if status ≠ .ok then ⟨jobId, status, false, final⟩
  else if payload = false then ⟨jobId, .errNomem, false, final⟩
  else ⟨jobId, .ok, cancelled, final⟩

structure System where
  jobs : Registry
  tasks : Nat → Option Task
  responses : List Response

def System.init : System := ⟨fun _ => .zero, fun _ => none, []⟩

inductive Label where
  | begin (t jobId : Nat)
  | work (t : Nat) (progress : JobProgress)
  | scanReturn (t : Nat) (status : Status)
  | finish (t : Nat)
  | respond (t : Nat) (payload : Bool)
  | query (jobId : Nat) (cancel : Bool)
deriving DecidableEq

namespace System

def setTask (s : System) (t : Nat) (task : Task) : System :=
  { s with tasks := update s.tasks t (some task) }

def step (s : System) : Label → Option System
  | .begin t jobId =>
    match s.tasks t with
    | some _ => none
    | none =>
      match scanJobBegin s.jobs jobId with
      | none => some s
      | some (i, jobs) => some ({ s with jobs := jobs }.setTask t ⟨jobId, i, .scanning⟩)
  | .work t progress =>
    match s.tasks t with
    | some ⟨_, i, .scanning⟩ =>
      some { s with jobs := update s.jobs i { s.jobs i with progress := progress } }
    | _ => none
  -- the tracked scan samples the flag last, and drops it with the result of a failed scan
  | .scanReturn t status =>
    match s.tasks t with
    | some ⟨jobId, i, .scanning⟩ =>
      some (s.setTask t
        ⟨jobId, i, .returned status (status = .ok && (s.jobs i).cancelRequested)⟩)
    | _ => none
  | .finish t =>
    match s.tasks t with
    | some ⟨jobId, i, .returned status cancelled⟩ =>
      let jobs := scanJobFinish s.jobs i status
      some ({ s with jobs := jobs }.setTask t
        ⟨jobId, i, .finished status cancelled (jobs i).state⟩)
    | _ => none
  | .respond t payload =>
    match s.tasks t with
    | some ⟨jobId, _, .finished status cancelled final⟩ =>
      some { s with
        tasks := update s.tasks t none
        responses := s.responses ++ [sendResponse jobId status cancelled final payload] }
    | _ => none
  | .query jobId cancel => some { s with jobs := (handleScanJobStatus s.jobs jobId cancel).2 }

end System

/-! ## What the registry operations do -/

variable {jobs : Registry} {i : Fin scanJobSlots} {jobId : Nat}

theorem scanJobFindLocked_some (h : scanJobFindLocked jobs jobId = some i) :
    (jobs i).occupied = true ∧ (jobs i).jobId = jobId := by
  simpa using find?_some h

theorem scanJobFindLocked_none (h : scanJobFindLocked jobs jobId = none)
    (i : Fin scanJobSlots) : (jobs i).occupied = true → (jobs i).jobId ≠ jobId := by
  have hi := find?_eq_none.mp h i (mem_finRange i)
  intro hocc hid
  simp [hocc, hid] at hi

theorem scanJobBegin_some {jobs' : Registry} (h : scanJobBegin jobs jobId = some (i, jobs')) :
    (∀ j, (jobs j).occupied = true → (jobs j).jobId ≠ jobId) ∧ (jobs i).free = true ∧
      jobs' = update jobs i (.begun jobId) := by
  unfold scanJobBegin at h
  split at h
  · cases h
  split at h
  · cases h
  rename_i hfind
  obtain ⟨j, hj, heq⟩ := Option.map_eq_some_iff.mp h
  obtain ⟨rfl, rfl⟩ := Prod.mk.inj heq
  exact ⟨scanJobFindLocked_none (by simpa using hfind), by simpa using find?_some hj, rfl⟩

theorem handleScanJobStatus_cases (jobs : Registry) (jobId : Nat) (cancel : Bool) :
    (handleScanJobStatus jobs jobId cancel).2 = jobs ∨
      ∃ i, cancel = true ∧ (jobs i).Runs jobId ∧
        (handleScanJobStatus jobs jobId cancel).2 =
          update jobs i { jobs i with cancelRequested := true } := by
  unfold handleScanJobStatus
  split
  · exact .inl rfl
  cases hfind : scanJobFindLocked jobs jobId with
  | none => exact .inl rfl
  | some i =>
    obtain ⟨hocc, hid⟩ := scanJobFindLocked_some hfind
    dsimp only
    split
    · rename_i hrun
      simp only [Bool.and_eq_true, decide_eq_true_eq] at hrun
      exact .inr ⟨i, hrun.1, ⟨hocc, hrun.2, hid⟩, rfl⟩
    · exact .inl rfl

namespace System

inductive Moves (s : System) : Label → System → Prop
  | refused (t jobId : Nat) : Moves s (.begin t jobId) s
  | began {t jobId : Nat} {i : Fin scanJobSlots} : s.tasks t = none →
      (∀ j, (s.jobs j).occupied = true → (s.jobs j).jobId ≠ jobId) → (s.jobs i).free = true →
      Moves s (.begin t jobId)
        ({ s with jobs := update s.jobs i (.begun jobId) }.setTask t
          ⟨jobId, i, .scanning⟩)
  | worked {t jobId : Nat} {i : Fin scanJobSlots} (progress : JobProgress) :
      s.tasks t = some ⟨jobId, i, .scanning⟩ →
      Moves s (.work t progress)
        { s with jobs := update s.jobs i { s.jobs i with progress := progress } }
  | returned {t jobId : Nat} {i : Fin scanJobSlots} (status : Status) :
      s.tasks t = some ⟨jobId, i, .scanning⟩ →
      Moves s (.scanReturn t status) (s.setTask t
        ⟨jobId, i, .returned status (status = .ok && (s.jobs i).cancelRequested)⟩)
  | finished {t jobId : Nat} {i : Fin scanJobSlots} {status : Status} {cancelled : Bool} :
      s.tasks t = some ⟨jobId, i, .returned status cancelled⟩ →
      Moves s (.finish t) ({ s with jobs := scanJobFinish s.jobs i status }.setTask t
        ⟨jobId, i, .finished status cancelled (scanJobFinish s.jobs i status i).state⟩)
  | responded {t jobId : Nat} {i : Fin scanJobSlots} {status : Status} {cancelled : Bool}
      {final : JobState} (payload : Bool) :
      s.tasks t = some ⟨jobId, i, .finished status cancelled final⟩ →
      Moves s (.respond t payload)
        { s with
          tasks := update s.tasks t none
          responses := s.responses ++ [sendResponse jobId status cancelled final payload] }
  | queried (jobId : Nat) (cancel : Bool) : Moves s (.query jobId cancel) s
  | cancelled {jobId : Nat} {i : Fin scanJobSlots} : (s.jobs i).Runs jobId →
      Moves s (.query jobId true)
        { s with jobs := update s.jobs i { s.jobs i with cancelRequested := true } }

variable {label : Label}

theorem moves_of_step {s s' : System} (h : s.step label = some s') :
    Moves s label s' := by
  cases label with
  | begin t jobId =>
    simp only [step] at h
    split at h
    · cases h
    · rename_i htask
      split at h
      · obtain rfl := Option.some.inj h
        exact .refused t jobId
      · rename_i i jobs hbegin
        obtain ⟨hids, hfree, rfl⟩ := scanJobBegin_some hbegin
        obtain rfl := Option.some.inj h
        exact .began htask hids hfree
  | work t progress =>
    simp only [step] at h
    split at h
    · rename_i htask
      obtain rfl := Option.some.inj h
      exact .worked progress htask
    · cases h
  | scanReturn t status =>
    simp only [step] at h
    split at h
    · rename_i htask
      obtain rfl := Option.some.inj h
      exact .returned status htask
    · cases h
  | finish t =>
    simp only [step] at h
    split at h
    · rename_i htask
      obtain rfl := Option.some.inj h
      exact .finished htask
    · cases h
  | respond t payload =>
    simp only [step] at h
    split at h
    · rename_i htask
      obtain rfl := Option.some.inj h
      exact .responded payload htask
    · cases h
  | query jobId cancel =>
    obtain rfl := Option.some.inj h
    rcases handleScanJobStatus_cases s.jobs jobId cancel with hsame | ⟨i, rfl, hruns, hset⟩
    · rw [hsame]
      exact .queried jobId cancel
    · rw [hset]
      exact .cancelled hruns

/-! ## The registry is consistent -/

structure Consistent (s : System) : Prop where
  uniqueIds : ∀ i j, (s.jobs i).occupied = true → (s.jobs j).occupied = true →
    (s.jobs i).jobId = (s.jobs j).jobId → i = j
  owned : ∀ t task, s.tasks t = some task → task.Active → (s.jobs task.slot).Runs task.jobId
  distinct : ∀ t t' task task', s.tasks t = some task → s.tasks t' = some task' →
    task.Active → task'.Active → task.slot = task'.slot → t = t'

theorem consistent_init : Consistent init where
  uniqueIds := by
    intro i j hi
    cases hi
  owned := by
    intro t task htask
    cases htask
  distinct := by
    intro t t' task task' htask
    cases htask

variable {s s' : System}

def SameJob (slot slot' : ScanJobSlot) : Prop :=
  slot'.occupied = slot.occupied ∧ slot'.state = slot.state ∧ slot'.jobId = slot.jobId

theorem sameJob_update {jobs : Registry} {i : Fin scanJobSlots} {slot : ScanJobSlot}
    (h : SameJob (jobs i) slot) (j : Fin scanJobSlots) :
    SameJob (jobs j) (update jobs i slot j) := by
  rcases eq_or_ne j i with rfl | hne
  · rwa [update_self]
  · rw [update_of_ne hne]
    exact ⟨rfl, rfl, rfl⟩

theorem SameJob.runs {slot slot' : ScanJobSlot} {jobId : Nat} (h : SameJob slot slot')
    (hruns : slot.Runs jobId) : slot'.Runs jobId :=
  ⟨h.1.trans hruns.occupied, h.2.1.trans hruns.state_eq, h.2.2.trans hruns.jobId_eq⟩

def TasksFrom (s s' : System) : Prop :=
  ∀ t task', s'.tasks t = some task' → task'.Active →
    ∃ task, s.tasks t = some task ∧ task.Active ∧ task.slot = task'.slot ∧
      task.jobId = task'.jobId

theorem TasksFrom.of_eq (h : s'.tasks = s.tasks) : TasksFrom s s' := by
  intro t task' htask hactive
  rw [h] at htask
  exact ⟨task', htask, hactive, rfl, rfl⟩

theorem TasksFrom.setTask {t : Nat} {task task' : Task} (jobs : Registry)
    (htask : s.tasks t = some task) (hactive : task.Active) (hslot : task.slot = task'.slot)
    (hid : task.jobId = task'.jobId) :
    TasksFrom s ({ s with jobs := jobs }.setTask t task') := by
  intro u task'' hu hactive''
  rcases eq_or_ne u t with rfl | hne
  · obtain rfl : task' = task'' := by
      simpa [System.setTask] using hu
    exact ⟨task, htask, hactive, hslot, hid⟩
  · have hu' : s.tasks u = some task'' := by
      simpa [System.setTask, update_of_ne hne] using hu
    exact ⟨task'', hu', hactive'', rfl, rfl⟩

theorem Consistent.keep (h : Consistent s) (hjobs : ∀ i, SameJob (s.jobs i) (s'.jobs i))
    (htasks : TasksFrom s s') : Consistent s' where
  uniqueIds := by
    intro i j hi hj hid
    rw [(hjobs i).1] at hi
    rw [(hjobs j).1] at hj
    rw [(hjobs i).2.2, (hjobs j).2.2] at hid
    exact h.uniqueIds i j hi hj hid
  owned := by
    intro t task' htask' hactive'
    obtain ⟨task, htask, hactive, hslot, hid⟩ := htasks t task' htask' hactive'
    rw [← hslot, ← hid]
    exact (hjobs task.slot).runs (h.owned t task htask hactive)
  distinct := by
    intro t u task' other' htask' hother' hactive' hactiveOther' hslots
    obtain ⟨task, htask, hactive, hslot, -⟩ := htasks t task' htask' hactive'
    obtain ⟨other, hother, hactiveOther, hslotOther, -⟩ := htasks u other' hother' hactiveOther'
    exact h.distinct t u task other htask hother hactive hactiveOther
      (hslot.trans (hslots.trans hslotOther.symm))

theorem Consistent.began (h : Consistent s) {t jobId : Nat} {i : Fin scanJobSlots}
    (hids : ∀ j, (s.jobs j).occupied = true → (s.jobs j).jobId ≠ jobId)
    (hfree : (s.jobs i).free = true) :
    Consistent ({ s with jobs := update s.jobs i (.begun jobId) }.setTask t
      ⟨jobId, i, .scanning⟩) := by
  have hother : ∀ u task, s.tasks u = some task → task.Active → task.slot ≠ i := by
    intro u task htask hactive hslot
    have hruns := (h.owned u task htask hactive).not_free
    rw [hslot, hfree] at hruns
    cases hruns
  refine ⟨?_, ?_, ?_⟩
  · intro j k hj hk hid
    simp only [System.setTask, update_apply] at hj hk hid
    split_ifs at hj hk hid with hji hki hki
    · exact hji.trans hki.symm
    · exact absurd hid.symm (hids k hk)
    · exact absurd hid (hids j hj)
    · exact h.uniqueIds j k hj hk hid
  · intro u task htask hactive
    simp only [System.setTask, update_apply] at htask ⊢
    split_ifs at htask with hut
    · obtain rfl := Option.some.inj htask
      rw [if_pos rfl]
      exact ScanJobSlot.runs_begun jobId
    · rw [if_neg (hother u task htask hactive)]
      exact h.owned u task htask hactive
  · intro u v task task' htask htask' hactive hactive' hslot
    simp only [System.setTask, update_apply] at htask htask'
    split_ifs at htask htask' with hut hvt hvt
    · exact hut.trans hvt.symm
    · obtain rfl := Option.some.inj htask
      exact absurd hslot.symm (hother v task' htask' hactive')
    · obtain rfl := Option.some.inj htask'
      exact absurd hslot (hother u task htask hactive)
    · exact h.distinct u v task task' htask htask' hactive hactive' hslot

theorem scanJobFinish_apply (jobs : Registry) (i j : Fin scanJobSlots) (status : Status) :
    (scanJobFinish jobs i status j).occupied = (jobs j).occupied ∧
      (scanJobFinish jobs i status j).jobId = (jobs j).jobId ∧
      (j ≠ i → scanJobFinish jobs i status j = jobs j) := by
  unfold scanJobFinish
  split
  · rcases eq_or_ne j i with rfl | hne
    · rw [update_self]
      exact ⟨rfl, rfl, fun h => absurd rfl h⟩
    · rw [update_of_ne hne]
      exact ⟨rfl, rfl, fun _ => rfl⟩
  · exact ⟨rfl, rfl, fun _ => rfl⟩

theorem Consistent.finished (h : Consistent s) {t jobId : Nat} {i : Fin scanJobSlots}
    {status : Status} {cancelled : Bool}
    (htask : s.tasks t = some ⟨jobId, i, .returned status cancelled⟩) (final : JobState) :
    Consistent ({ s with jobs := scanJobFinish s.jobs i status }.setTask t
      ⟨jobId, i, .finished status cancelled final⟩) := by
  have hmine : Task.Active ⟨jobId, i, .returned status cancelled⟩ := by
    intro _ _ _ hphase
    cases hphase
  -- the handlers that are still active are the other ones, in other slots
  have hothers : ∀ u task, (update s.tasks t
        (some ⟨jobId, i, .finished status cancelled final⟩)) u = some task →
      task.Active → u ≠ t ∧ s.tasks u = some task := by
    intro u task hu hactive
    rcases eq_or_ne u t with rfl | hne
    · rw [update_self] at hu
      obtain rfl := Option.some.inj hu
      exact absurd rfl (hactive _ _ _)
    · rw [update_of_ne hne] at hu
      exact ⟨hne, hu⟩
  refine ⟨?_, ?_, ?_⟩
  · intro j k hj hk hid
    simp only [System.setTask] at hj hk hid
    rw [(scanJobFinish_apply s.jobs i j status).1] at hj
    rw [(scanJobFinish_apply s.jobs i k status).1] at hk
    rw [(scanJobFinish_apply s.jobs i j status).2.1,
      (scanJobFinish_apply s.jobs i k status).2.1] at hid
    exact h.uniqueIds j k hj hk hid
  · intro u task hu hactive
    obtain ⟨hne, hu'⟩ := hothers u task hu hactive
    have hslot : task.slot ≠ i := by
      intro hslot
      exact hne (h.distinct u t task _ hu' htask hactive hmine hslot)
    simp only [System.setTask]
    rw [(scanJobFinish_apply s.jobs i task.slot status).2.2 hslot]
    exact h.owned u task hu' hactive
  · intro u v task task' hu hv hactive hactive' hslot
    exact h.distinct u v task task' (hothers u task hu hactive).2 (hothers v task' hv hactive').2
      hactive hactive' hslot

theorem Consistent.step (h : Consistent s) (hstep : s.step label = some s') :
    Consistent s' := by
  cases moves_of_step hstep with
  | refused t jobId => exact h
  | began _ hids hfree => exact h.began hids hfree
  | worked progress htask =>
    exact h.keep (sameJob_update ⟨rfl, rfl, rfl⟩) (.of_eq rfl)
  | returned status htask =>
    refine h.keep (fun _ => ⟨rfl, rfl, rfl⟩) (.setTask s.jobs htask ?_ rfl rfl)
    intro _ _ _ hphase
    cases hphase
  | finished htask => exact h.finished htask _
  | @responded t jobId i status cancelled final payload htask =>
    refine h.keep (fun _ => ⟨rfl, rfl, rfl⟩) ?_
    intro u task hu hactive
    simp only [update_apply] at hu
    split_ifs at hu
    exact ⟨task, hu, hactive, rfl, rfl⟩
  | queried jobId cancel => exact h
  | cancelled hruns => exact h.keep (sameJob_update ⟨rfl, rfl, rfl⟩) (.of_eq rfl)

def KeepsRunning (s : System) (label : Label) (s' : System) : Prop :=
  ∀ i jobId, (s.jobs i).Runs jobId →
    (s'.jobs i).Runs jobId ∨ ∃ t task, label = .finish t ∧ s.tasks t = some task ∧
      task.Active ∧ task.slot = i ∧ task.jobId = jobId

def AffectsOnlyNamed (s : System) (label : Label) (s' : System) : Prop :=
  ∀ jobId cancel, label = .query jobId cancel →
    s'.tasks = s.tasks ∧ s'.responses = s.responses ∧
      ∀ i, s'.jobs i ≠ s.jobs i → cancel = true ∧ (s.jobs i).Runs jobId

theorem keepsRunning_of_step (h : Consistent s) (hstep : s.step label = some s') :
    KeepsRunning s label s' := by
  intro j job hruns
  cases moves_of_step hstep with
  | refused t jobId => exact .inl hruns
  | @began t jobId i _ _ hfree =>
    have hji : j ≠ i := by
      rintro rfl
      rw [hruns.not_free] at hfree
      cases hfree
    left
    simpa only [System.setTask, update_of_ne hji] using hruns
  | worked progress htask =>
    refine .inl (SameJob.runs (sameJob_update ?_ j) hruns)
    exact ⟨rfl, rfl, rfl⟩
  | returned status htask => exact .inl hruns
  | @finished t jobId i status cancelled htask =>
    rcases eq_or_ne j i with rfl | hne
    · have hmine : Task.Active ⟨jobId, j, .returned status cancelled⟩ := by
        intro _ _ _ hphase
        cases hphase
      refine .inr ⟨t, _, rfl, htask, hmine, rfl, ?_⟩
      exact (h.owned t _ htask hmine).jobId_eq.symm.trans hruns.jobId_eq
    · left
      simpa only [System.setTask, (scanJobFinish_apply s.jobs i j status).2.2 hne] using hruns
  | responded payload htask => exact .inl hruns
  | queried jobId cancel => exact .inl hruns
  | cancelled _ =>
    refine .inl (SameJob.runs (sameJob_update ?_ j) hruns)
    exact ⟨rfl, rfl, rfl⟩

theorem affectsOnlyNamed_of_step (hstep : s.step label = some s') :
    AffectsOnlyNamed s label s' := by
  rintro jobId cancel rfl
  cases moves_of_step hstep with
  | queried => exact ⟨rfl, rfl, fun i hi => absurd rfl hi⟩
  | @cancelled _ i hruns =>
    refine ⟨rfl, rfl, ?_⟩
    intro j hj
    rcases eq_or_ne j i with rfl | hne
    · exact ⟨rfl, hruns⟩
    · exact absurd (update_of_ne hne _ _) hj

/-! ## Final states and flags -/

/-- A step at which the two samples of the cancel flag cannot come apart: no
CANCEL arrives between the return of a scan that has not seen one and its finish,
no scan fails after a CANCEL, and the response of a cancelled scan finds memory
for its payload. -/
def Clean (s : System) : Label → Prop
  | .query jobId true => ∀ t i status cancelled,
      s.tasks t = some ⟨jobId, i, .returned status cancelled⟩ → cancelled = true
  | .scanReturn t status => ∀ jobId i, s.tasks t = some ⟨jobId, i, .scanning⟩ →
      (s.jobs i).cancelRequested = true → status = .ok
  | .respond t payload => ∀ jobId i status final,
      s.tasks t = some ⟨jobId, i, .finished status true final⟩ → payload = true
  | _ => True

structure FlagsAgree (s : System) : Prop where
  returned : ∀ t jobId i status cancelled,
    s.tasks t = some ⟨jobId, i, .returned status cancelled⟩ →
      (s.jobs i).cancelRequested = cancelled ∧ (cancelled = true → status = .ok)
  finished : ∀ t jobId i status cancelled final,
    s.tasks t = some ⟨jobId, i, .finished status cancelled final⟩ →
      (final = .cancelled ↔ cancelled = true) ∧ (cancelled = true → status = .ok)
  responded : ∀ r ∈ s.responses, r.final = .cancelled ↔ r.flagged = true

theorem flagsAgree_init : FlagsAgree init where
  returned := by
    intro t jobId i status cancelled htask
    cases htask
  finished := by
    intro t jobId i status cancelled final htask
    cases htask
  responded := by
    intro r hr
    cases hr

theorem finalState_eq_cancelled_iff {cancelRequested : Bool} {status : Status} :
    finalState cancelRequested status = .cancelled ↔ cancelRequested = true := by
  unfold finalState
  cases cancelRequested with
  | true => simp
  | false => by_cases h : status = .ok <;> simp [h]

theorem FlagsAgree.setJobs (h : FlagsAgree s) (jobs : Registry)
    (hjobs : ∀ t jobId i status cancelled,
      s.tasks t = some ⟨jobId, i, .returned status cancelled⟩ →
        (jobs i).cancelRequested = (s.jobs i).cancelRequested) :
    FlagsAgree { s with jobs := jobs } where
  returned := by
    intro t jobId i status cancelled htask
    rw [hjobs t jobId i status cancelled htask]
    exact h.returned t jobId i status cancelled htask
  finished := h.finished
  responded := h.responded

theorem FlagsAgree.setTask (h : FlagsAgree s) (t : Nat) {task : Task}
    (hret : ∀ status cancelled, task.phase = .returned status cancelled →
      (s.jobs task.slot).cancelRequested = cancelled ∧ (cancelled = true → status = .ok))
    (hfin : ∀ status cancelled final, task.phase = .finished status cancelled final →
      (final = .cancelled ↔ cancelled = true) ∧ (cancelled = true → status = .ok)) :
    FlagsAgree (s.setTask t task) where
  returned := by
    intro u jobId i status cancelled hu
    simp only [System.setTask, update_apply] at hu
    split_ifs at hu
    · obtain rfl := Option.some.inj hu
      exact hret status cancelled rfl
    · exact h.returned u jobId i status cancelled hu
  finished := by
    intro u jobId i status cancelled final hu
    simp only [System.setTask, update_apply] at hu
    split_ifs at hu
    · obtain rfl := Option.some.inj hu
      exact hfin status cancelled final rfl
    · exact h.finished u jobId i status cancelled final hu
  responded := h.responded

theorem sendResponse_agrees {jobId : Nat} {status : Status} {cancelled payload : Bool}
    {final : JobState} (hfinal : final = .cancelled ↔ cancelled = true)
    (hok : cancelled = true → status = .ok) (hpayload : cancelled = true → payload = true) :
    (sendResponse jobId status cancelled final payload).final = .cancelled ↔
      (sendResponse jobId status cancelled final payload).flagged = true := by
  unfold sendResponse
  cases cancelled with
  | true => simp [hfinal, hok, hpayload]
  | false => split_ifs <;> simp [hfinal]

theorem FlagsAgree.step (hc : Consistent s) (h : FlagsAgree s)
    (hclean : Clean s label) (hstep : s.step label = some s') : FlagsAgree s' := by
  cases moves_of_step hstep with
  | refused t jobId => exact h
  | @began t jobId i htask hids hfree =>
    have hjobs := h.setJobs (update s.jobs i (.begun jobId)) (by
      intro u id j status cancelled hu
      have hji : j ≠ i := by
        rintro rfl
        have hruns := hc.owned u _ hu (by rintro _ _ _ ⟨⟩)
        rw [hruns.not_free] at hfree
        cases hfree
      rw [update_of_ne hji])
    exact hjobs.setTask t (by rintro _ _ ⟨⟩) (by rintro _ _ _ ⟨⟩)
  | @worked t jobId i progress htask =>
    refine h.setJobs _ ?_
    intro u id j status cancelled hu
    rcases eq_or_ne j i with rfl | hne
    · rw [update_self]
    · rw [update_of_ne hne]
  | @returned t jobId i status htask =>
    refine h.setTask t ?_ (by rintro _ _ _ ⟨⟩)
    rintro _ _ ⟨⟩
    by_cases hok : status = .ok
    · simp [hok]
    · have hflag : (s.jobs i).cancelRequested = false := by
        simpa using mt (hclean jobId i htask) hok
      simp [hok, hflag]
  | @finished t jobId i status cancelled htask =>
    obtain ⟨hflag, hok⟩ := h.returned t jobId i status cancelled htask
    have hruns := hc.owned t _ htask (by rintro _ _ _ ⟨⟩)
    have hjobs := h.setJobs (scanJobFinish s.jobs i status) (by
      intro u id j status' cancelled' hu
      unfold scanJobFinish
      rw [if_pos hruns.occupied]
      rcases eq_or_ne j i with rfl | hne
      · rw [update_self]
      · rw [update_of_ne hne])
    refine hjobs.setTask t (by rintro _ _ ⟨⟩) ?_
    rintro _ _ _ ⟨⟩
    refine ⟨?_, hok⟩
    unfold scanJobFinish
    rw [if_pos hruns.occupied, update_self, finalState_eq_cancelled_iff, hflag]
  | @responded t jobId i status cancelled final payload htask =>
    obtain ⟨hfinal, hok⟩ := h.finished t jobId i status cancelled final htask
    have hother : ∀ u task, update s.tasks t none u = some task →
        s.tasks u = some task := by
      intro u task hu
      rw [update_apply] at hu
      split_ifs at hu
      exact hu
    refine ⟨?_, ?_, ?_⟩
    · intro u id j st c hu
      exact h.returned u id j st c (hother u _ hu)
    · intro u id j st c fin hu
      exact h.finished u id j st c fin (hother u _ hu)
    · intro r hr
      rcases mem_append.mp hr with hr | hr
      · exact h.responded r hr
      · obtain rfl := mem_singleton.mp hr
        refine sendResponse_agrees hfinal hok ?_
        rintro rfl
        exact hclean jobId i status final htask
  | queried jobId cancel => exact h
  | @cancelled jobId i hruns =>
    refine h.setJobs _ ?_
    intro u id j status cancelled hu
    rcases eq_or_ne j i with rfl | hne
    · -- the handler in the cancelled slot is the one the request names
      have hid := (hc.owned u _ hu (by rintro _ _ _ ⟨⟩)).jobId_eq
      obtain rfl : id = jobId := hid.symm.trans hruns.jobId_eq
      obtain rfl := hclean u j status cancelled hu
      rw [update_self, (h.returned u id j status true hu).1]
    · rw [update_of_ne hne]

end System

/-- What holds of every state of a run, whatever the cancel flags do. -/
def System.Safe (s : System) : Prop :=
  s.Consistent ∧ ∀ label s', s.step label = some s' →
    s.KeepsRunning label s' ∧ s.AffectsOnlyNamed label s'

/-- **The scan job registry.** In every run, ids are unique, running slots are
neither recycled nor shared, and a request affects only the job it names; and in
every run of clean steps, a job ends CANCELLED exactly if its response says so. -/
theorem scanJobs_consistent {labels : List Label} {s : System} :
    (Run System.step (fun _ _ => True) .init labels s → s.Safe) ∧
      (Run System.step System.Clean .init labels s →
        ∀ r ∈ s.responses, r.final = .cancelled ↔ r.flagged = true) := by
  constructor
  · intro hrun
    have hs : s.Consistent :=
      hrun.invariant (fun _ _ _ hs _ hstep => hs.step hstep) System.consistent_init
    exact ⟨hs, fun label s' hstep =>
      ⟨System.keepsRunning_of_step hs hstep, System.affectsOnlyNamed_of_step hstep⟩⟩
  · intro hrun
    have hs : s.Consistent ∧ s.FlagsAgree :=
      hrun.invariant (P := fun s => s.Consistent ∧ s.FlagsAgree)
        (fun _ _ _ hs hclean hstep => ⟨hs.1.step hstep, hs.2.step hs.1 hclean hstep⟩)
        ⟨System.consistent_init, System.flagsAgree_init⟩
    exact hs.2.responded

theorem scanJobs_consistent_cancelled : ∃ s,
    Run System.step System.Clean .init
      [.begin 0 7, .begin 1 8, .query 7 true, .scanReturn 0 .ok, .scanReturn 1 .ok, .finish 1,
        .finish 0, .respond 0 true, .respond 1 true] s ∧
      s.responses = [⟨7, .ok, true, .cancelled⟩, ⟨8, .ok, false, .completed⟩] ∧
      ∀ r ∈ s.responses, r.final = .cancelled ↔ r.flagged = true := by
  have hrun : ∃ s, Run System.step System.Clean .init
      [.begin 0 7, .begin 1 8, .query 7 true, .scanReturn 0 .ok, .scanReturn 1 .ok, .finish 1,
        .finish 0, .respond 0 true, .respond 1 true] s ∧
      s.responses = [⟨7, .ok, true, .cancelled⟩, ⟨8, .ok, false, .completed⟩] := by
    refine ⟨_, .cons trivial rfl (.cons trivial rfl (.cons ?_ rfl (.cons ?_ rfl (.cons ?_ rfl
      (.cons trivial rfl (.cons trivial rfl (.cons ?_ rfl (.cons ?_ rfl (.nil _))))))))), rfl⟩
    · intro t i status cancelled htask
      simp only [System.setTask, System.init, update_apply] at htask
      split_ifs at htask <;> cases htask
    · exact fun _ _ _ _ => rfl
    · exact fun _ _ _ _ => rfl
    · exact fun _ _ _ _ _ => rfl
    · exact fun _ _ _ _ _ => rfl
  obtain ⟨s, hrun, hresponses⟩ := hrun
  exact ⟨s, hrun, hresponses, scanJobs_consistent.2 hrun⟩

theorem scanJobs_cancelled_unflagged :
    ¬ ∀ labels s, Run System.step (fun _ _ => True) .init labels s →
      s.Safe ∧ ∀ r ∈ s.responses, r.final = .cancelled ↔ r.flagged = true := by
  intro h
  have hrun : ∃ s, Run System.step (fun _ _ => True) .init
      [.begin 0 7, .scanReturn 0 .ok, .query 7 true, .finish 0, .respond 0 true] s ∧
      s.responses = [⟨7, .ok, false, .cancelled⟩] :=
    ⟨_, .cons trivial rfl (.cons trivial rfl (.cons trivial rfl (.cons trivial rfl
      (.cons trivial rfl (.nil _))))), rfl⟩
  obtain ⟨s, hrun, hresponses⟩ := hrun
  have hflag := (h _ s hrun).2 ⟨7, .ok, false, .cancelled⟩ (by rw [hresponses]; decide)
  exact absurd (hflag.mp rfl) (by decide)

end MemDbg.Daemon
