import OutputThreading.Command.Run
import OutputThreading.Proofs.Files.Listing

/-!
# Runs with an output folder

Each job compiles the text that its source has when the job starts, and it writes one file.  A run
therefore leaves the result of every job in its place, compiled from the text that the source had
before the run, if no job writes to the target or the source of a later one
(`Command.run_keeps_results`).
-/

namespace OutputThreading
namespace Command

/-! ## Sessions -/

theorem run_bind_eq_ok_iff
    {α β : Type}
    {first : Session α}
    {next : α → Session β}
    {disk after : Disk}
    {result : β} :
    (first >>= next).run disk = (.ok result, after) ↔
      ∃ value between, first.run disk = (.ok value, between) ∧
        (next value).run between = (.ok result, after) := by
  change ExceptT.bindCont next (first.run disk).1 (first.run disk).2 = _ ↔ _
  rcases first.run disk with ⟨value | value, between⟩
  · constructor
    · intro equal
      cases equal
    · rintro ⟨value, between, equal, _⟩
      cases equal
  · constructor
    · intro equal
      exact ⟨value, between, rfl, equal⟩
    · rintro ⟨other, later, equal, succeeds⟩
      cases equal
      exact succeeds

theorem run_get_bind {α : Type} (next : Disk → Session α) (disk : Disk) :
    (get >>= next : Session α).run disk = (next disk).run disk :=
  rfl

/-- What can fail without a change to the disk comes first. -/
theorem run_mk_bind_eq_ok_iff
    {α β : Type}
    {outcome : Except Failure α}
    {next : α → Session β}
    {disk after : Disk}
    {result : β} :
    (ExceptT.mk (pure outcome) >>= next : Session β).run disk = (.ok result, after) ↔
      ∃ value, outcome = .ok value ∧ (next value).run disk = (.ok result, after) := by
  rw [run_bind_eq_ok_iff]
  constructor
  · rintro ⟨value, between, ran, succeeds⟩
    cases ran
    exact ⟨value, rfl, succeeds⟩
  · rintro ⟨value, rfl, succeeds⟩
    exact ⟨value, disk, rfl, succeeds⟩

theorem mapError_eq_ok_iff
    {α ε ε' : Type}
    {outcome : Except ε α}
    {f : ε → ε'}
    {result : α} :
    outcome.mapError f = .ok result ↔ outcome = .ok result := by
  cases outcome <;> simp [Except.mapError]

/-! ## Jobs -/

/-- Write the result of a job. -/
def Job.write (job : Job) (outDir : Path) (result : Text) : Session Unit := do
  let target := job.target outDir
  set (← ExceptT.mk (pure (((← get).writeText target result).mapError (.unwritable target))))

theorem Job.writeText_of_write
    {job : Job}
    {outDir : Path}
    {result : Text}
    {disk after : Disk}
    (succeeds : (job.write outDir result).run disk = (.ok (), after)) :
    disk.writeText (job.target outDir) result = .ok after := by
  unfold Job.write at succeeds
  rw [run_get_bind, run_mk_bind_eq_ok_iff] at succeeds
  obtain ⟨written, writing, ended⟩ := succeeds
  cases ended
  exact mapError_eq_ok_iff.mp writing

/-- A job reads and compiles its source, makes folders, and writes the result. -/
theorem Job.exists_of_run
    {job : Job}
    {config : Config}
    {outDir : Path}
    {disk after : Disk}
    (succeeds : (job.run config outDir).run disk = (.ok (), after)) :
    ∃ text result made, disk.readText job.source = .ok text ∧
      OutputThreading.compile config text = .ok result ∧
      Disk.WritesOnly [] disk made ∧ made.writeText (job.target outDir) result = .ok after := by
  unfold Job.run at succeeds
  rw [run_get_bind, run_mk_bind_eq_ok_iff] at succeeds
  obtain ⟨result, compiles, succeeds⟩ := succeeds
  obtain ⟨text, reads, compiles⟩ := bind_eq_ok_iff.mp compiles
  rw [mapError_eq_ok_iff] at reads compiles
  cases around : (job.target outDir).parent? with
  | none =>
      simp only [around] at succeeds
      exact ⟨text, result, disk, reads, compiles, .refl disk, writeText_of_write succeeds⟩
  | some parent =>
      simp only [around] at succeeds
      rw [run_get_bind, run_mk_bind_eq_ok_iff] at succeeds
      obtain ⟨made, makes, succeeds⟩ := succeeds
      rw [mapError_eq_ok_iff] at makes
      exact ⟨text, result, made, reads, compiles, Disk.writesOnly_of_makeFolders makes,
        writeText_of_write succeeds⟩

/-- What a job does: it compiles the text of its source to its target and changes no other file. -/
theorem Job.of_run
    {job : Job}
    {config : Config}
    {outDir : Path}
    {disk after : Disk}
    (working : disk.root.IsFolder disk.working)
    (succeeds : (job.run config outDir).run disk = (.ok (), after)) :
    ∃ text result, disk.readText job.source = .ok text ∧
      OutputThreading.compile config text = .ok result ∧
      after.readText (job.target outDir) = .ok result ∧
      Disk.WritesOnly [disk.locationOf (job.target outDir)] disk after := by
  obtain ⟨text, result, made, reads, compiles, makes, writes⟩ := exists_of_run succeeds
  have workingMade : made.root.IsFolder made.working := by
    rw [makes.working_eq]
    exact makes.root.folders disk.working working
  obtain ⟨changes, found⟩ := Disk.of_writeText workingMade writes
  rw [makes.locationOf_eq] at changes
  exact ⟨text, result, reads, compiles, found, makes.trans changes⟩

/-! ## Runs of jobs -/

/-- No job writes to the target or the source of a later one. -/
def JobsApart (disk : Disk) (outDir : Path) (jobs : List Job) : Prop :=
  jobs.Pairwise fun earlier later =>
    disk.locationOf (earlier.target outDir) ≠ disk.locationOf (later.target outDir) ∧
      disk.locationOf (earlier.target outDir) ≠ disk.locationOf later.source

instance (disk : Disk) (outDir : Path) (jobs : List Job) : Decidable (JobsApart disk outDir jobs) :=
  inferInstanceAs (Decidable (List.Pairwise _ _))

/-- Every job has left its result at its target, compiled from the text that its source had before. -/
def KeepsResults
    (before after : Disk)
    (config : Config)
    (outDir : Path)
    (jobs : List Job) : Prop :=
  ∀ job ∈ jobs, ∃ text result, before.readText job.source = .ok text ∧
    OutputThreading.compile config text = .ok result ∧
    after.readText (job.target outDir) = .ok result

/-- Jobs that run one after the other leave their results, compiled from the texts that their sources
had before. -/
theorem keepsResults_of_forM
    {config : Config}
    {outDir : Path}
    {jobs : List Job}
    {disk after : Disk}
    (working : disk.root.IsFolder disk.working)
    (leads : ∀ job ∈ jobs, disk.LeadsToFile job.source)
    (apart : JobsApart disk outDir jobs)
    (succeeds : (jobs.forM fun job => job.run config outDir).run disk = (.ok (), after)) :
    Disk.WritesOnly (jobs.map fun job => disk.locationOf (job.target outDir)) disk after ∧
      KeepsResults disk after config outDir jobs := by
  induction jobs generalizing disk with
  | nil =>
      cases succeeds
      exact ⟨.refl _, fun job member => absurd member List.not_mem_nil⟩
  | cons job jobs inductionHypothesis =>
      obtain ⟨first, apart⟩ := List.pairwise_cons.mp apart
      obtain ⟨_, between, runs, runOthers⟩ := run_bind_eq_ok_iff.mp succeeds
      obtain ⟨text, result, reads, compiles, found, writes⟩ := job.of_run working runs
      have unwritten {path : Path}
          (other : disk.locationOf (job.target outDir) ≠ disk.locationOf path) :
          disk.locationOf path ∉ [disk.locationOf (job.target outDir)] := by
        rw [List.mem_singleton]
        exact other.symm
      have workingBetween : between.root.IsFolder between.working := by
        rw [writes.working_eq]
        exact writes.root.folders disk.working working
      have leadsBetween : ∀ later ∈ jobs, between.LeadsToFile later.source :=
        fun later member => writes.leadsToFile (unwritten (first later member).2)
          (leads later (List.mem_cons_of_mem job member))
      have apartBetween : JobsApart between outDir jobs := by
        unfold JobsApart
        simp only [writes.locationOf_eq]
        exact apart
      obtain ⟨changes, results⟩ :=
        inductionHypothesis workingBetween leadsBetween apartBetween runOthers
      simp only [writes.locationOf_eq] at changes
      refine ⟨writes.trans changes, List.forall_mem_cons.mpr ⟨?_, fun later member => ?_⟩⟩
      · refine ⟨text, result, reads, compiles, changes.readText ?_ found⟩
        rw [writes.locationOf_eq]
        intro member
        obtain ⟨later, isLater, same⟩ := List.mem_map.mp member
        exact (first later isLater).1 same.symm
      · obtain ⟨laterText, laterResult, laterReads, laterCompiles, laterFound⟩ :=
          results later member
        refine ⟨laterText, laterResult, ?_, laterCompiles, laterFound⟩
        exact writes.readText_before (unwritten (first later member).2)
          (leads later (List.mem_cons_of_mem job member)) laterReads

theorem leadsToFile_of_mem_jobs
    {disk : Disk}
    (named : disk.root.HasFileNames)
    {options : Options}
    {job : Job}
    (member : job ∈ jobs disk options) :
    disk.LeadsToFile job.source := by
  obtain ⟨input, _, member⟩ := List.mem_flatMap.mp member
  unfold jobsOf at member
  rw [List.mem_mergeSort] at member
  obtain ⟨names, listed, rfl⟩ := List.mem_map.mp member
  exact Disk.leadsToFile_of_mem_filesOf named listed

/-- A run that ends well with an output folder has run all its jobs. -/
theorem exists_forM_of_run
    {disk : Disk}
    {arguments : List Text}
    {options : Options}
    (understood : Options.ofArguments? arguments = some options)
    {outDir : Path}
    (given : options.outDir = some outDir)
    (succeeds : (run disk arguments).exitCode = 0) :
    ∃ config, loadConfig disk options = .ok config ∧
      ((jobs disk options).forM fun job => job.run config outDir).run disk =
        (.ok (), (run disk arguments).disk) := by
  unfold run at succeeds ⊢
  simp only [understood] at succeeds ⊢
  rcases ran : (execute options).run disk with ⟨failure | printed, after⟩
  · simp [ran] at succeeds
  · unfold execute at ran
    rw [run_get_bind, run_mk_bind_eq_ok_iff] at ran
    obtain ⟨config, loads, ran⟩ := ran
    rw [run_get_bind] at ran
    refine ⟨config, loads, ?_⟩
    simp only [given] at ran
    split at ran
    next => cases ran
    next =>
      obtain ⟨_, between, runs, ended⟩ := run_bind_eq_ok_iff.mp ran
      cases ended
      exact runs

/-- A run that ends well with an output folder leaves the result of every job at its target, compiled
from the text that the source had before the run, if no job writes to the target or the source of a
later one.  It changes no other file. -/
theorem run_keeps_results
    {disk : Disk}
    (named : disk.root.HasFileNames)
    (working : disk.root.IsFolder disk.working)
    {arguments : List Text}
    {options : Options}
    (understood : Options.ofArguments? arguments = some options)
    {outDir : Path}
    (given : options.outDir = some outDir)
    (apart : JobsApart disk outDir (jobs disk options))
    (succeeds : (run disk arguments).exitCode = 0) :
    ∃ config, loadConfig disk options = .ok config ∧
      KeepsResults disk (run disk arguments).disk config outDir (jobs disk options) ∧
      Disk.WritesOnly
        ((jobs disk options).map fun job => disk.locationOf (job.target outDir))
        disk (run disk arguments).disk := by
  obtain ⟨config, loads, runs⟩ := exists_forM_of_run understood given succeeds
  have leads : ∀ job ∈ jobs disk options, disk.LeadsToFile job.source :=
    fun job member => leadsToFile_of_mem_jobs named member
  obtain ⟨changes, results⟩ := keepsResults_of_forM working leads apart runs
  exact ⟨config, loads, results, changes⟩

/-- A folder and a file as inputs, with an output folder that is new. -/
theorem run_keeps_results_mirrored :
    let content (text : String) : ByteArray := (String.ofList text.toList).toUTF8
    let disk : Disk :=
      ⟨.folder "in".toList
        (.folder "x".toList (.file "a.tmpl".toList (content "print 1") .empty) .empty)
        (.file "b.tmpl".toList (content "print 2") .empty), []⟩
    let arguments := ["in".toList, "b.tmpl".toList, "--out-dir".toList, "out".toList]
    let outDir : Path := ⟨"out".toList⟩
    let options : Options :=
      ⟨[⟨"in".toList⟩, ⟨"b.tmpl".toList⟩], some outDir, none, none, none, false⟩
    disk.root.HasFileNames ∧ disk.root.IsFolder disk.working ∧
      Options.ofArguments? arguments = some options ∧
      JobsApart disk outDir (jobs disk options) ∧ (run disk arguments).exitCode = 0 ∧
      (jobs disk options).length = 2 ∧
      ∃ config, loadConfig disk options = .ok config ∧
        KeepsResults disk (run disk arguments).disk config outDir (jobs disk options) := by
  intro content disk arguments outDir options
  have named : disk.root.HasFileNames := by decide +kernel
  have working : disk.root.IsFolder disk.working := ⟨disk.root, rfl⟩
  have understood : Options.ofArguments? arguments = some options := by decide +kernel
  have apart : JobsApart disk outDir (jobs disk options) := by decide +kernel
  have succeeds : (run disk arguments).exitCode = 0 := by decide +kernel
  obtain ⟨config, loads, kept, _⟩ :=
    run_keeps_results named working understood rfl apart succeeds
  exact ⟨named, working, understood, apart, succeeds, by decide +kernel, config, loads, kept⟩

theorem not_keepsResults
    {before after : Disk}
    {config : Config}
    {outDir : Path}
    {jobs : List Job}
    (job : Job)
    (text : Text)
    (member : job ∈ jobs)
    (reads : (before.readText job.source).toOption = some text)
    (differs : (after.readText (job.target outDir)).toOption ≠
      (OutputThreading.compile config text).toOption) :
    ¬KeepsResults before after config outDir jobs := by
  intro kept
  obtain ⟨other, result, readsOther, compiles, found⟩ := kept job member
  rw [readsOther] at reads
  rw [← Option.some.inj reads, compiles, found] at differs
  exact differs rfl

/-- A result below the output folder can take the place of an input that is still to be compiled, and
of the result of an input with the same name. -/
theorem run_overwrites_source_and_result :
    let content (text : String) : ByteArray := (String.ofList text.toList).toUTF8
    let inner (text : String) : Folder := .file "a.tmpl".toList (content text) .empty
    let outDir : Path := ⟨"out".toList⟩
    let options (inputs : List String) : Options :=
      ⟨inputs.map fun input => ⟨input.toList⟩, some outDir, none, none, none, false⟩
    let loses (disk : Disk) (inputs : List String) : Prop :=
      let arguments := inputs.map String.toList ++ ["--out-dir".toList, outDir.text]
      Options.ofArguments? arguments = some (options inputs) ∧
        (loadConfig disk (options inputs)).toOption = some {} ∧
        ((jobs disk (options inputs)).map fun job => disk.locationOf job.source).Nodup ∧
        (run disk arguments).exitCode = 0 ∧
        ¬KeepsResults disk (run disk arguments).disk {} outDir (jobs disk (options inputs))
    loses
        ⟨.folder "in".toList (.folder "x".toList (inner "print 1") .empty)
          (.folder "out".toList (.folder "x".toList (inner "print 2") .empty) .empty), []⟩
        ["in", "out/x/a.tmpl"] ∧
      loses
        ⟨.folder "x".toList (inner "print 1") (.folder "y".toList (inner "print 2") .empty), []⟩
        ["x", "y"] := by
  intro content inner outDir options loses
  refine ⟨⟨by decide +kernel, by decide +kernel, by decide +kernel, by decide +kernel, ?_⟩,
    ⟨by decide +kernel, by decide +kernel, by decide +kernel, by decide +kernel, ?_⟩⟩
  · apply not_keepsResults ⟨⟨"out/x/a.tmpl".toList⟩, ["a.tmpl".toList]⟩ "print 2".toList
    · decide +kernel
    · decide +kernel
    · decide +kernel
  · apply not_keepsResults ⟨⟨"x/a.tmpl".toList⟩, ["a.tmpl".toList]⟩ "print 1".toList
    · decide +kernel
    · decide +kernel
    · decide +kernel

end Command
end OutputThreading
