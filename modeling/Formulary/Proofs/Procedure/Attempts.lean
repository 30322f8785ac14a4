import Formulary.Procedure
import Formulary.Proofs.Runs
import Formulary.Proofs.Text

/-!
# The attempts of a test

A test attempts its commands one after the other, each with its values, on the disk that the one
before it left. It goes on while they succeed, and the first that is empty, cannot be started or
fails is the last that is attempted (`CommandTest.Attempts`). The test passes when it has commands,
all of them succeed, and what the last one printed holds what is expected; its log is then the logs
of all of them (`CommandTest.attempts_of_run`).
-/

namespace Formulary.CommandTest

/-! ## One command -/

/-- What became of a command. -/
inductive Attempt where
  | empty
  | unstarted (argv : List String) (cause : Cause)
  | finished (argv : List String) (done : Finished)

namespace Attempt

/-- The command was started, and its program says that it succeeded. -/
def Succeeds : Attempt → Prop
  | finished _ done => done.succeeded = true
  | _ => False

def log : Attempt → String
  | finished argv done =>
    commandLog "test" argv (Text.lossy done.output) (Text.lossy done.errors)
  | _ => ""

/-- What the command printed. -/
def output : Attempt → String
  | finished _ done => Text.lossy done.output
  | _ => ""

end Attempt

/-- A test command with its values. -/
def argv (f : Formula) (c : TestContext) (command : List String) : List String :=
  command.map (f.substitute · c.substitutions)

/-- How a program is started in a test : in the sandbox, which is its home, too, and with the search
path of the test. -/
def started (m : Machine) (c : TestContext) (path program : String) (arguments : List String) :
    Command where
  program := program
  arguments := arguments
  workdir := c.workdir
  environment := (m.environment.insert "HOME" c.workdir.text).insert "PATH" path
  ownSearchPath := true

/-- What becomes of a command on a disk, and the disk that it leaves. -/
inductive Tries (m : Machine) (c : TestContext) (path : String) :
    List String → Disk → Attempt → Disk → Prop
  | empty {d : Disk} : Tries m c path [] d .empty d
  | unstarted {program : String} {arguments : List String} {cause : Cause} {d d' : Disk} :
      m.launch (started m c path program arguments) d = (.error cause, d') →
      Tries m c path (program :: arguments) d (.unstarted (program :: arguments) cause) d'
  | finished {program : String} {arguments : List String} {done : Finished} {d d' : Disk} :
      m.launch (started m c path program arguments) d = (.ok done, d') →
      Tries m c path (program :: arguments) d (.finished (program :: arguments) done) d'

/-! ## All commands -/

/-- What becomes of commands, each on the disk that the one before it leaves. -/
inductive TriesAll (m : Machine) (c : TestContext) (path : String) :
    List (List String) → Disk → List Attempt → Disk → Prop
  | nil {d : Disk} : TriesAll m c path [] d [] d
  | cons {command : List String} {commands : List (List String)} {a : Attempt}
      {attempts : List Attempt} {d d' d'' : Disk} : Tries m c path command d a d' →
      TriesAll m c path commands d' attempts d'' →
      TriesAll m c path (command :: commands) d (a :: attempts) d''

/-- The attempts of a test at its commands. -/
structure Attempts (m : Machine) (f : Formula) (c : TestContext) (path : String)
    (commands : List (List String)) (d : Disk) (attempts : List Attempt) (d' : Disk) : Prop where
  inOrder : TriesAll m c path ((commands.take attempts.length).map (argv f c)) d attempts d'
  succeeded : ∀ a ∈ attempts.dropLast, a.Succeeds
  /-- Only a failure keeps the test from the commands that are left. -/
  stopped : attempts.length < commands.length → ∃ a ∈ attempts.getLast?, ¬a.Succeeds

variable {m : Machine} {f : Formula} {c : TestContext} {path : String} {command : List String}
  {commands : List (List String)} {a : Attempt} {attempts : List Attempt} {d d' d'' : Disk}

theorem Attempts.none : Attempts m f c path [] d [] d :=
  ⟨.nil, nofun, nofun⟩

/-- A failure is the end. -/
theorem Attempts.failed (h : Tries m c path (argv f c command) d a d') (ha : ¬a.Succeeds) :
    Attempts m f c path (command :: commands) d [a] d' :=
  ⟨.cons h .nil, nofun, fun _ => ⟨a, rfl, ha⟩⟩

theorem Attempts.next (h : Tries m c path (argv f c command) d a d') (ha : a.Succeeds)
    (hrest : Attempts m f c path commands d' attempts d'') :
    Attempts m f c path (command :: commands) d (a :: attempts) d'' := by
  refine ⟨.cons h hrest.inOrder, fun b hb => ?_, fun hlength => ?_⟩
  · cases attempts with
    | nil => exact absurd hb List.not_mem_nil
    | cons a' attempts =>
      rw [List.dropLast_cons_cons] at hb
      rcases List.mem_cons.1 hb with rfl | hb
      exacts [ha, hrest.succeeded b hb]
  · obtain ⟨b, hb, hfails⟩ := hrest.stopped (Nat.lt_of_succ_lt_succ hlength)
    refine ⟨b, ?_, hfails⟩
    rw [List.getLast?_cons, Option.mem_def.1 hb]
    rfl

theorem TriesAll.length_eq (h : TriesAll m c path commands d attempts d') :
    attempts.length = commands.length := by
  induction h with
  | nil => rfl
  | cons _ _ ih => rw [List.length_cons, List.length_cons, ih]

/-- When no attempt fails, all commands have been tried. -/
theorem Attempts.length_eq (h : Attempts m f c path commands d attempts d')
    (hall : ∀ a ∈ attempts, a.Succeeds) : attempts.length = commands.length := by
  have hle : attempts.length ≤ commands.length := by
    have hlength := h.inOrder.length_eq
    rw [List.length_map, List.length_take] at hlength
    omega
  refine hle.eq_of_not_lt fun hlt => ?_
  obtain ⟨a, ha, hfails⟩ := h.stopped hlt
  exact hfails (hall a (List.mem_of_getLast? ha))

/-! ## The run of a test -/

/-- One step of a run : it goes on with the log and the output of an attempt that succeeds, and ends
with one that fails. -/
theorem exists_tries (log last : String) (command : List String) (rest : List (List String))
    (d : Disk) : ∃ a d', Tries m c path (argv f c command) d a d' ∧
      (a.Succeeds → runFrom m f c path log last (command :: rest) d =
        runFrom m f c path (log ++ a.log) a.output rest d') ∧
      (¬a.Succeeds → ∃ reason,
        runFrom m f c path log last (command :: rest) d = (.error reason, d')) := by
  have hargv : command.map (f.substitute · c.substitutions) = argv f c command := rfl
  rw [runFrom, hargv]
  cases argv f c command with
  | nil => exact ⟨.empty, d, .empty, False.elim, fun _ => ⟨_, rfl⟩⟩
  | cons program arguments =>
    dsimp only
    rw [bind_apply]
    cases hlaunch : m.launch (started m c path program arguments) d with
    | mk result d' =>
      have hstarted := hlaunch
      rw [started] at hstarted
      rw [hstarted]
      cases result with
      | error cause => exact ⟨_, d', .unstarted hlaunch, False.elim, fun _ => ⟨_, rfl⟩⟩
      | ok done =>
        refine ⟨_, d', .finished hlaunch, fun hdone => ?_, fun hdone => ?_⟩
        · dsimp only
          rw [if_pos (show done.succeeded = true from hdone)]
          rfl
        · dsimp only
          rw [if_neg (show ¬done.succeeded = true from hdone)]
          exact ⟨_, rfl⟩

/-- What comes of a run from its attempts, by induction on the commands : the logs of those so far
stay in front, and only the last one's output counts. -/
theorem runFrom_attempts (log last : String) (commands : List (List String)) (d : Disk) :
    ∃ attempts, Attempts m f c path commands d attempts
        (runFrom m f c path log last commands d).2 ∧
      ((∀ a ∈ attempts, a.Succeeds) → (runFrom m f c path log last commands d).1 =
        .ok (log ++ String.join (attempts.map Attempt.log),
          (attempts.getLast?.map Attempt.output).getD last)) ∧
      ((∃ a ∈ attempts, ¬a.Succeeds) →
        ∃ reason, (runFrom m f c path log last commands d).1 = .error reason) := by
  induction commands generalizing log last d with
  | nil =>
    refine ⟨[], .none, fun _ => ?_, fun ⟨_, ha, _⟩ => nomatch ha⟩
    rw [List.map_nil, String.join_nil, String.append_empty]
    rfl
  | cons command rest ih =>
    obtain ⟨a, d', htries, hgoes, hends⟩ := exists_tries (m := m) log last command rest d
    by_cases ha : a.Succeeds
    · obtain ⟨attempts, hattempts, hok, herror⟩ := ih (log ++ a.log) a.output d'
      rw [hgoes ha]
      refine ⟨a :: attempts, .next htries ha hattempts, fun hall => ?_, fun hfails => ?_⟩
      · rw [hok fun b hb => hall b (List.mem_cons_of_mem a hb), List.map_cons, String.join_cons,
          List.getLast?_cons, String.append_assoc]
        cases attempts.getLast? <;> rfl
      · obtain ⟨b, hb, hfails⟩ := hfails
        rcases List.mem_cons.1 hb with rfl | hb
        exacts [absurd ha hfails, herror ⟨b, hb, hfails⟩]
    · obtain ⟨reason, hrun⟩ := hends ha
      rw [hrun]
      exact ⟨[a], .failed htries ha, fun hall => absurd (hall a List.mem_cons_self) ha,
        fun _ => ⟨reason, rfl⟩⟩

/-- The last attempt printed what the test expects to be printed. -/
def Expected (t : SmokeTest) (attempts : List Attempt) : Prop :=
  ∀ expected, t.expected = some expected →
    ∃ a ∈ attempts.getLast?, expected.toList <:+: a.output.toList

/-- How a run is judged by its log and what was printed last. -/
def verdict (t : SmokeTest) (log last : String) : Except String String :=
  match t.expected with
  | none => .ok log
  | some expected =>
    if Text.contains last expected then .ok log
    else .error ("output does not contain '" ++ expected ++ "'")

/-- What a run ends with when it has commands and a search path. -/
theorem run_apply {t : SmokeTest} (hcommands : t.commands ≠ []) (hpath : searchPath m c = .ok path)
    (d : Disk) : run m f t c d =
      ((runFrom m f c path "" "" t.commands d).1.bind fun printed => verdict t printed.1 printed.2,
        (runFrom m f c path "" "" t.commands d).2) := by
  have hsome : ¬t.commands.isEmpty = true := by rwa [List.isEmpty_iff]
  rw [run, if_neg hsome, hpath]
  dsimp only
  rw [bind_apply]
  rcases runFrom m f c path "" "" t.commands d with ⟨reason | ⟨log, last⟩, d'⟩
  · rfl
  · dsimp only [Except.bind]
    unfold verdict
    cases t.expected with
    | none => rfl
    | some expected =>
      dsimp only
      split <;> rfl

/-- The output of the last attempt is what decides. -/
theorem verdict_eq_ok_iff {t : SmokeTest} {log log' : String} (ha : attempts.getLast? = some a) :
    verdict t log a.output = .ok log' ↔ Expected t attempts ∧ log' = log := by
  have hlast (expected : String) :
      (∃ a ∈ attempts.getLast?, expected.toList <:+: a.output.toList) ↔
        Text.contains a.output expected = true := by
    rw [ha, Text.contains_iff]
    simp
  unfold verdict Expected
  cases t.expected with
  | none => simp [eq_comm]
  | some expected =>
    simp only [Option.some.injEq, forall_eq', hlast]
    split
    next h => simp [h, eq_comm]
    next h => simp [h]

/-- A run comes to its end when all attempts succeed and the last one has the expected output. -/
theorem run_attempts {t : SmokeTest} (hpath : searchPath m c = .ok path) (d : Disk) :
    ∃ attempts, Attempts m f c path t.commands d attempts (run m f t c d).2 ∧
      ∀ log, (run m f t c d).1 = .ok log ↔
        (t.commands ≠ [] ∧ attempts.length = t.commands.length ∧ (∀ a ∈ attempts, a.Succeeds) ∧
          Expected t attempts) ∧ log = String.join (attempts.map Attempt.log) := by
  by_cases hcommands : t.commands = []
  · have hempty : run m f t c d = (.error "no test commands declared", d) := by
      rw [run, if_pos (List.isEmpty_iff.2 hcommands)]
      rfl
    rw [hempty]
    exact ⟨[], hcommands ▸ .none, fun log => ⟨nofun, fun h => absurd hcommands h.1.1⟩⟩
  · obtain ⟨attempts, hattempts, hok, herror⟩ :=
      runFrom_attempts (m := m) (f := f) (c := c) "" "" t.commands d
    rw [run_apply hcommands hpath]
    refine ⟨attempts, hattempts, fun log => ?_⟩
    by_cases hall : ∀ a ∈ attempts, a.Succeeds
    · have hlength := hattempts.length_eq hall
      obtain ⟨a, ha⟩ : ∃ a, attempts.getLast? = some a := by
        cases attempts with
        | nil => exact absurd (List.length_eq_zero_iff.1 hlength.symm) hcommands
        | cons a attempts => exact ⟨_, List.getLast?_cons⟩
      rw [hok hall, ha, String.empty_append]
      exact (verdict_eq_ok_iff ha).trans
        ⟨fun h => ⟨⟨hcommands, hlength, hall, h.1⟩, h.2⟩, fun h => ⟨h.1.2.2.2, h.2⟩⟩
    · obtain ⟨reason, hreason⟩ := herror (by simpa using hall)
      rw [hreason]
      exact ⟨nofun, fun h => absurd h.1.2.2.1 hall⟩

/-- A test attempts its commands in order up to the first that does not succeed, and passes when it
has commands, all of them succeed, and the last one's output holds what is expected. Then it has the
logs of all of them, and otherwise it fails as a test, which tells whether it is a placeholder. -/
theorem attempts_of_run {t : SmokeTest} {p : TestProcedure} (htest : f.test = some t)
    (hprocedure : procedure? m f = some p) (hpath : searchPath m c = .ok path) (d : Disk) :
    ∃ attempts, Attempts m f c path t.commands d attempts (p.run c d).2 ∧
      ((∃ log, (p.run c d).1 = .ok log) ↔ t.commands ≠ [] ∧
        attempts.length = t.commands.length ∧ (∀ a ∈ attempts, a.Succeeds) ∧
        Expected t attempts) ∧
      (∀ log, (p.run c d).1 = .ok log → log = String.join (attempts.map Attempt.log)) ∧
      ∀ halt, (p.run c d).1 = .error halt → ∃ reason, halt = .error (.test reason t.stub) := by
  have hrun : p.run c d = ((run m f t c d).1.mapError fun reason => .error (.test reason t.stub),
      (run m f t c d).2) := by
    rw [procedure?, htest, Option.map_some] at hprocedure
    obtain rfl := Option.some.inj hprocedure
    rfl
  obtain ⟨attempts, hattempts, hok⟩ := run_attempts (f := f) (t := t) hpath d
  simp only [hrun, mapError_eq_ok_iff, mapError_eq_error_iff, hok]
  refine ⟨attempts, hattempts, ⟨fun ⟨_, h⟩ => h.1, fun h => ⟨_, h, rfl⟩⟩, fun _ h => h.2,
    fun halt ⟨reason, _, h⟩ => ⟨reason, h.symm⟩⟩

namespace Recorded

/-! What follows is a test of three commands, the second of which fails, on a machine that notes on
its disk which programs it starts. -/

def test : SmokeTest where
  commands := [["hello", "%(prefix)s"], ["leave"], ["hello"]]
  expected := some "good day"

def formula : Formula := { (default : Formula) with test := some test }

def machine : Machine where
  launch command := do
    modify fun d => d.put [command.program] (.directory 0o755)
    let status := if command.program = "leave" then 1 else 0
    pure (.ok ⟨some status, "good day".toUTF8, .empty⟩)

def context : TestContext := ⟨⟨"/sandbox"⟩, ⟨"/prefix"⟩⟩

def procedure : TestProcedure where
  run c := do
    pure ((← run machine formula test c).mapError fun reason => .error (.test reason false))

end Recorded

/-- A test is attempted up to the command that fails. -/
theorem attempts_of_run_recorded :
    procedure? Recorded.machine Recorded.formula = some Recorded.procedure ∧
      searchPath Recorded.machine Recorded.context = .ok "/prefix/bin" ∧
      ∃ attempts, Attempts Recorded.machine Recorded.formula Recorded.context "/prefix/bin"
          Recorded.test.commands {} attempts (Recorded.procedure.run Recorded.context {}).2 ∧
        ∀ halt, (Recorded.procedure.run Recorded.context {}).1 = .error halt →
          ∃ reason, halt = .error (.test reason false) := by
  have hprocedure : procedure? Recorded.machine Recorded.formula = some Recorded.procedure := rfl
  have hpath : searchPath Recorded.machine Recorded.context = .ok "/prefix/bin" := rfl
  obtain ⟨attempts, hattempts, -, -, herror⟩ := attempts_of_run rfl hprocedure hpath {}
  exact ⟨hprocedure, hpath, attempts, hattempts, herror⟩

example : ((Recorded.procedure.run Recorded.context {}).2.entries.map (·.1)) =
    [["leave"], ["hello"], []] := by decide +kernel

end Formulary.CommandTest
