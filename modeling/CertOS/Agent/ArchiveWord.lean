import CertOS.Agent.Host
import CertOS.Master.Service
import CertOS.Shell

/-!
# The command that unpacks an archive

The thread of a job that comes with an archive makes a command line of the path of the archive
and the directory of the job, and hands it to `std::system`, that is, to a shell. The path is
what a caller of `UpdateJobRequest` has written into the request, and that call is open to
everyone; nobody quotes it. A path with a blank is two words of the command, and one with a
semicolon ends it (`CertOS.archive_runs_command`).

The shell gets the path as it was sent just if it is a plain word
(`CertOS.archive_is_one_word_iff`).
-/

namespace CertOS

open Interleave

/-! ### The law -/

/-- The characters that are safe in the name of a directory and in the identifier of a job: they
mean nothing to the shell, wherever they stand. -/
def shellSafe (c : Char) : Bool := Shell.isPlain c && c ≠ '#' && c ≠ '\x00'

/-- **The archive path is one word**: what the thread of the job hands to `std::system` is one
simple command, with the path as its third word. -/
def ArchiveIsOneWord (workDir jobId : String) (spec : JobSpec) : Prop :=
  ∀ command, (HostTask.body workDir (.execution jobId spec)).Calls
      (.executor jobId (.system command)) →
    Shell.words (cStr command) = some ["tar", "-xzf", spec.archivePath, "-C",
      JobExecutor.sandboxDir workDir jobId spec]

/-! ### The command -/

section Command

variable {workDir jobId path : String} {spec : JobSpec}

/-- From the fork on, the thread of a job hands nothing to a shell. -/
theorem only_forkChild : (HostTask.forkChild workDir jobId spec).Only fun op =>
    ∀ command, op ≠ .executor jobId (.system command) := by
  refine Prog.Only.op_bind (by rintro command ⟨⟩) fun forked => ?_
  cases forked with
  | none => exact ⟨by rintro command ⟨⟩, fun _ => trivial⟩
  | some pid =>
    refine Prog.Only.op_bind (by rintro command ⟨⟩) fun _ => ?_
    refine Prog.Only.op_bind (by rintro command ⟨⟩) fun _ => ?_
    refine Prog.Only.op_bind (by rintro command ⟨⟩) fun chunks => ?_
    refine Prog.Only.op_bind (by rintro command ⟨⟩) fun processEnd => ?_
    refine Prog.Only.op_bind (by rintro command ⟨⟩) fun _ => ?_
    exact ⟨by rintro command ⟨⟩, fun _ => trivial⟩

/-- **What the thread of a job hands to a shell**: nothing if it comes without an archive, and
else the one command. -/
theorem calls_system_iff {command : String} :
    (HostTask.body workDir (.execution jobId spec)).Calls (.executor jobId (.system command)) ↔
      spec.archivePath ≠ "" ∧ command = JobExecutor.untarCmd workDir jobId spec := by
  have hfork : ¬ (HostTask.forkChild workDir jobId spec).Calls
      (.executor jobId (.system command)) :=
    fun h => only_forkChild.of_calls h command rfl
  have hfail (res : JobResult) : ¬ (HostTask.onCompleted res).Calls
      (.executor jobId (.system command)) := by
    rw [HostTask.onCompleted, Prog.op, Prog.calls_call]
    rintro (h | ⟨_, h⟩)
    · cases h
    · exact Prog.not_calls_ret h
  have hbody : HostTask.body workDir (.execution jobId spec) =
      .call (.executor jobId .pipe) fun opened =>
        if opened then
          if spec.archivePath = "" then HostTask.forkChild workDir jobId spec
          else .call (.executor jobId (.system (JobExecutor.untarCmd workDir jobId spec)))
            fun _ => HostTask.forkChild workDir jobId spec
        else HostTask.onCompleted
          { jobId, exitCode := -1, errorMessage := "Failed to create pipe" } := rfl
  rw [hbody, Prog.calls_call]
  constructor
  · rintro (h | ⟨opened, h⟩)
    · cases h
    cases opened with
    | false => exact absurd h (hfail _)
    | true =>
      rw [if_pos rfl] at h
      split at h
      · exact absurd h hfork
      · rename_i hpath
        rcases Prog.calls_call.mp h with heq | ⟨_, h⟩
        · cases heq
          exact ⟨hpath, rfl⟩
        · exact absurd h hfork
  · rintro ⟨hpath, rfl⟩
    refine Or.inr ⟨true, ?_⟩
    rw [if_pos rfl, if_neg hpath]
    exact Prog.calls_call.mpr (Or.inl rfl)

/-- The directory of a job whose name is made of safe characters is a plain word. -/
theorem isPlainWord_sandboxDir (hspec : spec.archivePath ≠ "")
    (hwork : ∀ c ∈ workDir.toList, shellSafe c = true)
    (hjob : ∀ c ∈ jobId.toList, shellSafe c = true) :
    Shell.IsPlainWord (JobExecutor.sandboxDir workDir jobId spec).toList ∧
      '\x00' ∉ (JobExecutor.sandboxDir workDir jobId spec).toList := by
  have hdir : (JobExecutor.sandboxDir workDir jobId spec).toList =
      workDir.toList ++ '/' :: jobId.toList := by
    rw [JobExecutor.sandboxDir, if_neg hspec, String.toList_append, String.toList_append,
      List.append_assoc]
    rfl
  have hsafe : ∀ c ∈ workDir.toList ++ '/' :: jobId.toList, shellSafe c = true := by
    intro c hc
    rcases List.mem_append.mp hc with hc | hc
    · exact hwork c hc
    rcases List.mem_cons.mp hc with rfl | hc
    · decide
    · exact hjob c hc
  have hparts (c : Char) (hc : c ∈ workDir.toList ++ '/' :: jobId.toList) :
      Shell.isPlain c = true ∧ c ≠ '#' ∧ c ≠ '\x00' := by
    have := hsafe c hc
    simpa only [shellSafe, Bool.and_eq_true, decide_eq_true_eq, and_assoc] using this
  rw [hdir]
  refine ⟨⟨by simp, fun hhead => ?_, fun c hc => (hparts c hc).1⟩, fun hnul => ?_⟩
  · exact (hparts '#' (List.mem_of_head? hhead)).2.1 rfl
  · exact (hparts _ hnul).2.2 rfl

/-- The command is its five words with blanks between them. -/
theorem toList_untarCmd : (JobExecutor.untarCmd workDir jobId spec).toList =
    Shell.unwords (["tar", "-xzf", spec.archivePath, "-C",
      JobExecutor.sandboxDir workDir jobId spec].map String.toList) := by
  simp only [JobExecutor.untarCmd, String.toList_append, List.map_cons, List.map_nil,
    Shell.unwords_cons (List.cons_ne_nil _ _), Shell.unwords_singleton, List.append_assoc]
  rfl

end Command

/-! ### The law, proved -/

/-- **The archive path is one word** of the command, for any path without a NUL that
`UpdateJobRequest` writes into a request, and for a directory and an identifier of safe
characters, if and only if the path is a plain word. -/
theorem archive_is_one_word_iff (req : JobRequest) {path workDir jobId : String}
    (hpath : path ≠ "") (hnul : '\x00' ∉ path.toList)
    (hwork : ∀ c ∈ workDir.toList, shellSafe c = true)
    (hjob : ∀ c ∈ jobId.toList, shellSafe c = true) :
    ArchiveIsOneWord workDir jobId (MasterService.withArchive path req).requestedSpec ↔
      Shell.IsPlainWord path.toList := by
  have hspec : (MasterService.withArchive path req).requestedSpec.archivePath = path := by
    rw [MasterService.withArchive, if_neg hpath]
  generalize (MasterService.withArchive path req).requestedSpec = spec at hspec
  subst hspec
  obtain ⟨hdir, hdirNul⟩ := isPlainWord_sandboxDir hpath hwork hjob
  have hstr : cStr (JobExecutor.untarCmd workDir jobId spec) =
      JobExecutor.untarCmd workDir jobId spec := by
    refine cStr_of_nul_not_mem fun h => ?_
    rw [JobExecutor.untarCmd, String.toList_append, String.toList_append,
      String.toList_append] at h
    rcases List.mem_append.mp h with h | h
    · rcases List.mem_append.mp h with h | h
      · rcases List.mem_append.mp h with h | h
        · exact absurd h (by decide)
        · exact hnul h
      · exact absurd h (by decide)
    · exact hdirNul h
  have hlaw : ArchiveIsOneWord workDir jobId spec ↔
      Shell.words (cStr (JobExecutor.untarCmd workDir jobId spec)) = some
        ["tar", "-xzf", spec.archivePath, "-C", JobExecutor.sandboxDir workDir jobId spec] := by
    constructor
    · intro h
      exact h _ (calls_system_iff.mpr ⟨hpath, rfl⟩)
    · intro h command hcalls
      obtain ⟨-, rfl⟩ := calls_system_iff.mp hcalls
      exact h
  have hne : ∀ w ∈ ["tar", "-xzf", spec.archivePath, "-C",
      JobExecutor.sandboxDir workDir jobId spec].map String.toList, w ≠ [] := by
    simp [hpath, hdir.1]
  rw [hlaw, hstr, Shell.words_eq_some, toList_untarCmd, Shell.lex_unwords_iff hne]
  simp only [List.map_cons, List.map_nil, List.forall_mem_cons]
  constructor
  · rintro ⟨-, -, hplain, -⟩
    exact hplain
  · intro hplain
    exact ⟨by decide +kernel, by decide +kernel, hplain, by decide +kernel, hdir,
      by rintro w ⟨⟩⟩

/-- The path of an upload is one word. -/
theorem archive_is_one_word_upload :
    ArchiveIsOneWord "/work" "job-1"
      (MasterService.withArchive "/uploads/req-7.tar.gz" {}).requestedSpec :=
  (archive_is_one_word_iff {} (by decide) (by decide +kernel)
    (List.all_eq_true.mp (by decide +kernel)) (List.all_eq_true.mp (by decide +kernel))).mpr
      (by decide +kernel)

/-- **The archive path is a command**: a path with a semicolon in it ends the one and begins
another. -/
theorem archive_runs_command :
    (Shell.words (cStr "tar -xzf a") = some ["tar", "-xzf", "a"] ∧
      Shell.words (cStr "reboot -C /work/job-1") = some ["reboot", "-C", "/work/job-1"]) ∧
    ¬ ArchiveIsOneWord "/work" "job-1"
      (MasterService.withArchive "a;reboot" {}).requestedSpec := by
  refine ⟨⟨by decide +kernel, by decide +kernel⟩, fun h => ?_⟩
  have hwords := h (JobExecutor.untarCmd "/work" "job-1"
    (MasterService.withArchive "a;reboot" {}).requestedSpec) (calls_system_iff.mpr ⟨by decide, rfl⟩)
  exact absurd hwords (by decide +kernel)

end CertOS
