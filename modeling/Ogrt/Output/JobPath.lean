import Ogrt.Output.JsonFile

namespace Ogrt
open CleanPath

/-- What os.Stat says about a path. -/
inductive StatResult
  | found
  | notExist
  | failed
  deriving DecidableEq, Repr

/-- Open. A missing directory is made, whether or not that succeeds; no result is log.Panic. -/
def JsonFileOutput.openPath (stat : StatResult) (params : GoString) : Option JsonFileOutput :=
  if params.length = 0 then none
  else
    match stat with
    | .found | .notExist => some ⟨params, false⟩
    | .failed => none

/-- By its spelling the file path leads to an entry directly inside the directory. -/
def DirectlyInside (path filepath : GoString) : Prop :=
  ∃ name, ∃ isName : IsName name, place filepath = (place path).push name isName

/-- What is expected of the paths for the job ids of two messages. -/
structure JobPathsSound (path : GoString) (msg other : ProcessInfo) : Prop where
  inside : DirectlyInside path (jobPath path msg)
  otherInside : DirectlyInside path (jobPath path other)
  apart : msg.getJobId ≠ other.getJobId → jobPath path msg ≠ jobPath path other

/-- Without its empty elements, dots and inner `..`, the job id goes as many levels up as it
comes back down along the end of the directory's own path, and then on to one more name. Above
the root there are no levels. -/
structure LeadsTo (path jobId name : GoString) : Prop where
  down : (relative jobId).names = name :: (place path).names.take (relative jobId).ups
  up : (place path).rooted = true ∨ (relative jobId).ups ≤ (place path).names.length

variable {path : GoString}

theorem LeadsTo.isName {jobId name : GoString} (leads : LeadsTo path jobId name) : IsName name :=
  (relative jobId).isName name (leads.down ▸ List.mem_cons_self)

theorem leadsTo_iff {jobId name : GoString} (nonempty : path ≠ []) (isName : IsName name) :
    LeadsTo path jobId name ↔ place (CleanPath.join path jobId) = (place path).push name isName := by
  rw [place_join nonempty, follow_eq_push_iff]
  exact ⟨fun ⟨down, up⟩ => ⟨down, up⟩, fun ⟨down, up⟩ => ⟨down, up⟩⟩

theorem directlyInside_iff {jobId : GoString} (nonempty : path ≠ []) :
    DirectlyInside path (CleanPath.join path jobId) ↔ ∃ name, LeadsTo path jobId name := by
  constructor
  · rintro ⟨name, isName, there⟩
    exact ⟨name, (leadsTo_iff nonempty isName).mpr there⟩
  · rintro ⟨name, leads⟩
    exact ⟨name, leads.isName, (leadsTo_iff nonempty leads.isName).mp leads⟩

/-- Job ids that lead to entries share a file exactly when they lead to the same one. -/
theorem LeadsTo.join_eq_iff {jobId other name name' : GoString} (nonempty : path ≠ []) (leads : LeadsTo path jobId name)
    (otherLeads : LeadsTo path other name') : CleanPath.join path jobId = CleanPath.join path other ↔ name = name' := by
  have here := (leadsTo_iff nonempty leads.isName).mp leads
  have there := (leadsTo_iff nonempty otherLeads.isName).mp otherLeads
  constructor
  · intro same
    rw [same, there] at here
    exact (List.cons.inj (congrArg Place.names here)).1.symm
  · rintro rfl
    rw [join_eq_render nonempty, join_eq_render nonempty, ← place_join nonempty, ← place_join nonempty, here, there]

theorem JsonFileOutput.openPath_eq_some {stat : StatResult} {params : GoString} {fw : JsonFileOutput}
    (opened : JsonFileOutput.openPath stat params = some fw) : fw.path = params ∧ params ≠ [] := by
  unfold JsonFileOutput.openPath at opened
  split at opened
  · cases opened
  · rename_i some
    refine ⟨?_, mt List.length_eq_zero_iff.mpr some⟩
    cases stat <;> cases opened <;> rfl

/-- The paths for two messages are entries of the directory, one for each job id, exactly
when both job ids lead to entries, and to different ones if they differ. -/
theorem job_paths_sound_iff (stat : StatResult) (params : GoString) (fw : JsonFileOutput)
    (opened : JsonFileOutput.openPath stat params = some fw) (msg other : ProcessInfo) :
    JobPathsSound fw.path msg other ↔ ∃ name name', LeadsTo params msg.getJobId name ∧
      LeadsTo params other.getJobId name' ∧ (msg.getJobId ≠ other.getJobId → name ≠ name') := by
  obtain ⟨rfl, nonempty⟩ := JsonFileOutput.openPath_eq_some opened
  constructor
  · rintro ⟨inside, otherInside, apart⟩
    obtain ⟨name, leads⟩ := (directlyInside_iff nonempty).mp inside
    obtain ⟨name', otherLeads⟩ := (directlyInside_iff nonempty).mp otherInside
    exact ⟨name, name', leads, otherLeads, fun differ same =>
      apart differ ((leads.join_eq_iff nonempty otherLeads).mpr same)⟩
  · rintro ⟨name, name', leads, otherLeads, differ⟩
    exact ⟨(directlyInside_iff nonempty).mpr ⟨name, leads⟩, (directlyInside_iff nonempty).mpr ⟨name', otherLeads⟩,
      fun ids same => differ ids ((leads.join_eq_iff nonempty otherLeads).mp same)⟩

/-- A report of the program "a" in a job. -/
def reportFor (jobId : GoString) : ProcessInfo :=
  ⟨some [0x61], some 7, some 1, some 5, none, some jobId, none, none, none, [], [], [], []⟩

/-- The ids "1" and "2" in "out". -/
theorem job_paths_sound_iff_two_jobs :
    JobPathsSound [0x6F, 0x75, 0x74] (reportFor [0x31]) (reportFor [0x32]) ↔
      ∃ name name', LeadsTo [0x6F, 0x75, 0x74] [0x31] name ∧ LeadsTo [0x6F, 0x75, 0x74] [0x32] name' ∧
        (([0x31] : GoString) ≠ [0x32] → name ≠ name') :=
  job_paths_sound_iff .found [0x6F, 0x75, 0x74] ⟨[0x6F, 0x75, 0x74], false⟩ rfl (reportFor [0x31]) (reportFor [0x32])

/-- With "/out" the job id "../x" gives "/x". -/
theorem job_id_leaves_directory :
    ¬ ∀ (stat : StatResult) (params : GoString) (fw : JsonFileOutput),
      JsonFileOutput.openPath stat params = some fw → ∀ msg other, JobPathsSound fw.path msg other := by
  intro sound
  let msg := reportFor [0x2E, 0x2E, 0x2F, 0x78]
  obtain ⟨name, isName, there⟩ := (sound .found [0x2F, 0x6F, 0x75, 0x74] _ rfl msg msg).inside
  have path : jobPath [0x2F, 0x6F, 0x75, 0x74] msg = [0x2F, 0x78] := by decide
  have levels : (place [0x2F, 0x78]).names.length = 1 := by decide
  have deeper : (place [0x2F, 0x6F, 0x75, 0x74]).names.length = 1 := by decide
  rw [path] at there
  rw [there, Place.push_names, List.length_cons, deeper] at levels
  cases levels

/-- A job id that is a name leads to the entry of that name. -/
theorem leadsTo_of_isName {jobId : GoString} (isName : IsName jobId) : LeadsTo path jobId jobId := by
  have spelled := relative_isName isName
  exact ⟨by rw [spelled]; rfl, Or.inr (by rw [spelled]; exact Nat.zero_le _)⟩

/-- Different names give different entries. -/
theorem job_paths_sound_of_names (nonempty : path ≠ []) {msg other : ProcessInfo} (isName : IsName msg.getJobId)
    (otherIsName : IsName other.getJobId) : JobPathsSound path msg other := by
  have leads := @leadsTo_of_isName path _ isName
  have otherLeads := @leadsTo_of_isName path _ otherIsName
  exact ⟨(directlyInside_iff nonempty).mpr ⟨_, leads⟩, (directlyInside_iff nonempty).mpr ⟨_, otherLeads⟩,
    fun ids same => ids ((leads.join_eq_iff nonempty otherLeads).mp same)⟩

end Ogrt
