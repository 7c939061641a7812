import SqlSelect.CommandLine.Run
import SqlSelect.Proofs.Descriptor.RoundTrip

/-!
# Invocations and what they leave behind

An invocation names a subcommand, says perhaps that it is to be verbose, and
names perhaps a file; each of these can be spelled in several ways, and two
variables of the environment stand in for what is left out. Whatever the
spelling, it comes to a `Job` (`Invocation.parse_eq`), and the job's exit code and
standard output are decided by its subject and the bytes of its source
(`Job.answer_of_rendered`, `Job.answer_of_not_rendered`).
-/

set_option autoImplicit false

namespace SqlSelect.CommandLine

open SqlSelect.Json (FloatReader)

/-! ## Spellings -/

/-- How to ask for a verbose run, or not to, before the subcommand. -/
inductive VerboseArguments : Bool → List String → Prop where
  | absent : VerboseArguments false []
  | short : VerboseArguments true ["-v"]
  | long : VerboseArguments true ["--verbose"]

/-- A word that stands by itself as a value: it does not look like an option. -/
def StandsAlone (value : String) : Prop :=
  value ≠ "" ∧ (value = "-" ∨ value.toList.head? ≠ some '-')

/-- How to name a file, or none, after the subcommand. -/
inductive FileArguments : Option String → List String → Prop where
  | absent : FileArguments none []
  | shortApart {path : String} (h : StandsAlone path) : FileArguments (some path) ["-i", path]
  | longApart {path : String} (h : StandsAlone path) : FileArguments (some path) ["--input", path]
  | shortJoined {path : String} (named : path ≠ "") (h : path.toList.head? ≠ some '=') :
    FileArguments (some path) ["-i" ++ path]
  | shortEquals {path : String} (named : path ≠ "") : FileArguments (some path) ["-i=" ++ path]
  | longEquals {path : String} (named : path ≠ "") : FileArguments (some path) ["--input=" ++ path]

/-- Arguments that ask for a subject to be rendered, say whether to be verbose,
and name a file or none. Two dashes may close them. -/
structure Invocation (subject : Subject) (verbose : Bool) (file : Option String)
    (args : List String) : Prop where
  spelled : ∃ before after closing, VerboseArguments verbose before ∧ FileArguments file after ∧
    closing ∈ [[], ["--"]] ∧ args = before ++ subject.name :: (after ++ closing)

/-- The environment has readable values for what the arguments leave out. -/
structure Environment.Completes (env : Environment) (verbose : Bool) (file : Option String) :
    Prop where
  verbose : verbose = true ∨ env.verbose ∈ [none, some "true", some "false"]
  input : file.isSome = true ∨ env.input ≠ some ""

/-- The job that is asked for. -/
def Environment.job (env : Environment) (subject : Subject) (verbose : Bool)
    (file : Option String) : Job where
  subject := subject
  verbose := verbose || env.verbose = some "true"
  input := file.or env.input

/-! ## Parsing -/

/-- A value that stands alone is not taken for an option. -/
theorem ofText_standsAlone {value : String} (h : StandsAlone value) :
    Argument.ofText value = .word value := by
  rcases h.2 with rfl | head
  · rfl
  · unfold Argument.ofText
    split
    · next eq => simp [eq] at head
    · next eq => simp [eq] at head
    · next eq => simp [eq] at head
    · rfl

theorem accept_named {path : String} (named : path ≠ "") :
    InputState.accept {} path = .ok { path := some path } := by
  simp [InputState.accept, named]

theorem finish_named (path : String) : InputState.finish { path := some path } = .ok (some path) := rfl

theorem finish_waiting {path : String} (named : path ≠ "") :
    InputState.finish { waiting := some (some path) } = .ok (some path) := by
  have settled : InputState.settle { waiting := some (some path) } =
      InputState.accept { waiting := some (some path) } path := rfl
  simp [InputState.finish, settled, InputState.accept, named, bind, Except.bind, pure, Except.pure]

/-- Two dashes at the end change nothing. -/
theorem parseInput_closing (subject : Subject) {s : InputState} {closing : List String}
    (h : closing ∈ [[], ["--"]]) : parseInput subject s closing = s.finish := by
  simp only [List.mem_cons, List.not_mem_nil, or_false] at h
  rcases h with rfl | rfl <;> rfl

/-- A name that stands by itself is taken once the arguments go on or end. -/
theorem parseInput_apart (subject : Subject) {path : String} (h : StandsAlone path)
    {closing : List String} (hc : closing ∈ [[], ["--"]]) :
    parseInput subject { waiting := some none } (path :: closing) = .ok (some path) := by
  rw [parseInput.eq_def]
  simp only [ofText_standsAlone h, ↓reduceIte]
  rw [parseInput_closing subject hc, finish_waiting h.1]

/-- However it is spelled, the name of the file is what comes out. -/
theorem FileArguments.parseInput_eq {file : Option String} {after : List String}
    (h : FileArguments file after) (subject : Subject) {closing : List String}
    (hc : closing ∈ [[], ["--"]]) : parseInput subject {} (after ++ closing) = .ok file := by
  have joined {path : String} (named : path ≠ "") :
      (do
        let s ← (← InputState.settle {}).accept path
        parseInput subject s closing) = .ok (some path) := by
    have settled : InputState.settle {} = .ok {} := rfl
    simp only [settled, bind, Except.bind, accept_named named]
    rw [parseInput_closing subject hc, finish_named]
  cases h with
  | absent => exact parseInput_closing subject hc
  | shortApart h => exact parseInput_apart subject h hc
  | longApart h => exact parseInput_apart subject h hc
  | @shortJoined path named h =>
    have shape : Argument.ofText ("-i" ++ path) = .short 'i' path.toList := by
      simp [Argument.ofText, String.toList_append]
    rw [List.singleton_append, parseInput.eq_def]
    simp only [shape]
    split
    case h_11 letters _ _ same =>
      obtain ⟨-, rfl⟩ := Argument.short.inj same
      rw [String.ofList_toList, joined named]
    case h_12 other same => exact absurd (Argument.short.inj same).1.symm other
    all_goals simp_all
  | @shortEquals path named =>
    have shape : Argument.ofText ("-i=" ++ path) = .short 'i' ('=' :: path.toList) := by
      simp [Argument.ofText, String.toList_append]
    rw [List.singleton_append, parseInput.eq_def]
    simp only [shape, String.ofList_toList, joined named]
  | @longEquals path named =>
    have shape : Argument.ofText ("--input=" ++ path) = .long "input" (some path) := by
      simp [Argument.ofText, String.toList_append, splitValue]
    rw [List.singleton_append, parseInput.eq_def]
    simp only [shape, joined named]

/-- **Whatever its spelling**, an invocation comes to the job that it asks for. -/
theorem Invocation.parse_eq {subject : Subject} {verbose : Bool} {file : Option String}
    {args : List String} (h : Invocation subject verbose file args) {env : Environment}
    (he : env.Completes verbose file) :
    Job.parse env args = .ok (env.job subject verbose file) := by
  obtain ⟨before, after, closing, spelled, named, closed, rfl⟩ := h.spelled
  have input : inputOrVariable env file = .ok (file.or env.input) := by
    cases file with
    | some path => rfl
    | none =>
      have given : env.input ≠ some "" := by simpa using he.input
      simp [inputOrVariable, given]
  have loud : verboseOrVariable env verbose = .ok (verbose || env.verbose = some "true") := by
    cases verbose with
    | true => rfl
    | false =>
      have readable : env.verbose ∈ [none, some "true", some "false"] := by simpa using he.verbose
      simp only [List.mem_cons, List.not_mem_nil, or_false] at readable
      rcases readable with value | value | value <;> simp [verboseOrVariable, value]
  have job : parseJob env verbose subject (after ++ closing) = .ok (env.job subject verbose file) := by
    rw [parseJob, named.parseInput_eq subject closed]
    simp only [bind, Except.bind, input, loud]
    rfl
  have subcommand : parseArguments env verbose (subject.name :: (after ++ closing)) =
      .ok (env.job subject verbose file) := by
    rw [← job]
    cases subject <;> rfl
  rw [← subcommand]
  cases spelled <;> rfl

/-! ## Outcomes -/

/-- The bytes of a source are a text that describes a subject, and the statement
or expression that it describes is rendered so. -/
def Rendered [FloatReader] : Subject → Except ReadError ByteArray → String → Prop
  | .query, content, sql => ∃ bytes text q, content = .ok bytes ∧ String.fromUTF8? bytes = some text ∧
      Descriptor.decode Query text = .ok q ∧ q.statement = .ok sql
  | .expr, content, sql => ∃ bytes text e, content = .ok bytes ∧ String.fromUTF8? bytes = some text ∧
      Descriptor.decode Expr text = .ok e ∧ e.sql = sql

/-- A source has a text if its bytes could be had and are UTF-8. -/
theorem sourceText_eq_ok {input : Option String} {content : Except ReadError ByteArray}
    {text : String} : sourceText input content = .ok text ↔
      ∃ bytes, content = .ok bytes ∧ String.fromUTF8? bytes = some text := by
  unfold sourceText
  cases content with
  | error e => simp
  | ok bytes => cases h : String.fromUTF8? bytes <;> simp [h]

/-- What is rendered has been decoded first, and a query may still fail. -/
theorem render_eq_ok [FloatReader] {subject : Subject} {text sql : String} :
    render subject text = .ok sql ↔ match subject with
      | .query => ∃ q, Descriptor.decode Query text = .ok q ∧ q.statement = .ok sql
      | .expr => ∃ e, Descriptor.decode Expr text = .ok e ∧ e.sql = sql := by
  cases subject with
  | query =>
    simp only [render]
    cases h : Descriptor.decode Query text with
    | error e => simp
    | ok q => cases hq : q.statement <;> simp [Except.mapError, hq]
  | expr =>
    simp only [render]
    cases h : Descriptor.decode Expr text <;> simp

/-- A source is rendered so if its text can be had and is rendered so. -/
theorem rendered_iff [FloatReader] (input : Option String) {subject : Subject}
    {content : Except ReadError ByteArray} {sql : String} : Rendered subject content sql ↔
      ∃ text, sourceText input content = .ok text ∧ render subject text = .ok sql := by
  simp only [sourceText_eq_ok, render_eq_ok]
  cases subject with
  | query =>
    constructor
    · rintro ⟨bytes, text, q, h, ht, hq, hs⟩
      exact ⟨text, ⟨bytes, h, ht⟩, q, hq, hs⟩
    · rintro ⟨text, ⟨bytes, h, ht⟩, q, hq, hs⟩
      exact ⟨bytes, text, q, h, ht, hq, hs⟩
  | expr =>
    constructor
    · rintro ⟨bytes, text, e, h, ht, he, hs⟩
      exact ⟨text, ⟨bytes, h, ht⟩, e, he, hs⟩
    · rintro ⟨text, ⟨bytes, h, ht⟩, e, he, hs⟩
      exact ⟨bytes, text, e, h, ht, he, hs⟩

/-- What a run shows to the program that waits for it: the exit code and the
standard output. -/
def Outcome.answer (outcome : Outcome) : UInt32 × String := (outcome.code, outcome.stdout)

/-- **What can be rendered** is written out, with the end of its line. -/
theorem Job.answer_of_rendered [FloatReader] {job : Job} {content : Except ReadError ByteArray} {sql : String}
    (h : Rendered job.subject content sql) : (job.outcome content).answer = (0, sql ++ "\n") := by
  obtain ⟨text, ht, hr⟩ := (rendered_iff job.input).1 h
  simp only [Outcome.answer, Job.outcome, ht, hr]

/-- **What cannot be rendered** leaves nothing on standard output. -/
theorem Job.answer_of_not_rendered [FloatReader] {job : Job} {content : Except ReadError ByteArray}
    (h : ¬ ∃ sql, Rendered job.subject content sql) : (job.outcome content).answer = (1, "") := by
  simp only [Outcome.answer, Job.outcome]
  cases ht : sourceText job.input content with
  | error failure => rfl
  | ok text =>
    simp only []
    cases hr : render job.subject text with
    | error failure => rfl
    | ok sql => exact absurd ⟨sql, (rendered_iff job.input).2 ⟨text, ht, hr⟩⟩ h

/-- Why a source cannot be read makes no difference. -/
theorem rendered_congr [FloatReader] {subject : Subject} {content content' : Except ReadError ByteArray}
    (same : content.toOption = content'.toOption) {sql : String} :
    Rendered subject content sql ↔ Rendered subject content' sql := by
  have held (bytes : ByteArray) : content = .ok bytes ↔ content' = .ok bytes := by
    cases content <;> cases content' <;> simp_all [Except.toOption]
  cases subject <;> simp only [Rendered, held]

/-- The answer depends on the subject and the content of the source alone. -/
theorem Job.answer_congr [FloatReader] (job job' : Job) (subject : job.subject = job'.subject)
    {content content' : Except ReadError ByteArray} (same : content.toOption = content'.toOption) :
    (job.outcome content).answer = (job'.outcome content').answer := by
  by_cases h : ∃ sql, Rendered job.subject content sql
  · obtain ⟨sql, h⟩ := h
    have h' : Rendered job'.subject content' sql := subject ▸ (rendered_congr same).1 h
    rw [answer_of_rendered h, answer_of_rendered h']
  · have h' : ¬ ∃ sql, Rendered job'.subject content' sql := by
      rwa [← subject, ← exists_congr fun sql => rendered_congr same]
    rw [answer_of_not_rendered h, answer_of_not_rendered h']

/-- A run whose arguments make a job is that job on the bytes of its source. -/
theorem run_of_parse [FloatReader] {env : Environment} {args : List String} {job : Job}
    (h : Job.parse env args = .ok job) (bytes : Option String → Except ReadError ByteArray) :
    run env args bytes = job.outcome (bytes job.input) := by
  rw [run, h]

/-- **A run decodes and renders**, and writes all or nothing. However its
arguments are spelled, an invocation comes to a job. A job whose source is a text
that can be decoded and rendered ends with code 0 and what is rendered on standard
output; every other one ends with code 1 and nothing there. So the answer depends
on the subcommand and the content of the source alone, and on no other file if the
arguments name one. -/
theorem run_renders [FloatReader] :
    (∀ (subject : Subject) (verbose : Bool) (file : Option String) (args : List String)
      (env : Environment), Invocation subject verbose file args → env.Completes verbose file →
      Job.parse env args = .ok (env.job subject verbose file)) ∧
    (∀ (env : Environment) (args : List String) (job : Job)
      (bytes : Option String → Except ReadError ByteArray), Job.parse env args = .ok job →
      (∀ sql, Rendered job.subject (bytes job.input) sql →
        (run env args bytes).answer = (0, sql ++ "\n")) ∧
      ((¬ ∃ sql, Rendered job.subject (bytes job.input) sql) →
        (run env args bytes).answer = (1, ""))) ∧
    (∀ (env env' : Environment) (args args' : List String) (job job' : Job)
      (bytes bytes' : Option String → Except ReadError ByteArray),
      Job.parse env args = .ok job → Job.parse env' args' = .ok job' → job.subject = job'.subject →
      (bytes job.input).toOption = (bytes' job'.input).toOption →
      (run env args bytes).answer = (run env' args' bytes').answer) ∧
    ∀ (subject : Subject) (verbose : Bool) (path : String) (args : List String)
      (env env' : Environment) (bytes bytes' : Option String → Except ReadError ByteArray),
      Invocation subject verbose (some path) args → env.Completes verbose (some path) →
      env'.Completes verbose (some path) → bytes (some path) = bytes' (some path) →
      (run env args bytes).answer = (run env' args bytes').answer := by
  refine ⟨fun _ _ _ _ _ h he => h.parse_eq he, fun env args job bytes h => ?_,
    fun env env' args args' job job' bytes bytes' h h' subject same => ?_,
    fun subject verbose path args env env' bytes bytes' h he he' same => ?_⟩
  · rw [run_of_parse h bytes]
    exact ⟨fun sql => Job.answer_of_rendered, Job.answer_of_not_rendered⟩
  · rw [run_of_parse h bytes, run_of_parse h' bytes']
    exact job.answer_congr job' subject same
  · rw [run_of_parse (h.parse_eq he) bytes, run_of_parse (h.parse_eq he') bytes']
    exact (env.job subject verbose (some path)).answer_congr (env'.job subject verbose (some path))
      rfl (congrArg Except.toOption same)

/-- The value of an option may be joined to it, and the arguments may be closed.
What the variable names is not looked at. -/
theorem run_renders_joined :
    let text := "\x7b\x22field\x22:\x22a\x22\x7d"
    let env : Environment := { verbose := some "false", input := some "y" }
    let files : Option String → Except ReadError ByteArray := fun source =>
      if source = some "x" then .ok text.toUTF8 else .error .notFound
    let piped : Option String → Except ReadError ByteArray := fun _ => .ok text.toUTF8
    Job.parse env ["-v", "expr", "-i=x", "--"] =
      .ok { subject := .expr, verbose := true, input := some "x" } ∧
    (run env ["-v", "expr", "-i=x", "--"] files).answer = (0, "a\n") ∧
    (run env ["expr"] files).answer = (1, "") ∧
    (run {} ["expr"] piped).answer = (run env ["-v", "expr", "-i=x", "--"] files).answer ∧
    (run {} ["-v", "expr", "-i=x", "--"] files).answer =
      (run env ["-v", "expr", "-i=x", "--"] files).answer := by
  intro text env files piped
  have closed : Invocation .expr true (some "x") ["-v", "expr", "-i=x", "--"] :=
    ⟨["-v"], ["-i=x"], ["--"], .short, .shortEquals (by decide), by decide, rfl⟩
  have bare : Invocation .expr false none ["expr"] := ⟨[], [], [], .absent, .absent, by decide, rfl⟩
  have complete : env.Completes true (some "x") := ⟨.inl rfl, .inl rfl⟩
  have parsed := run_renders.1 _ _ _ _ env closed complete
  have fallback := run_renders.1 _ _ _ _ env bare ⟨.inr (by decide), .inr (by decide)⟩
  have standard := run_renders.1 _ _ _ _ {} bare ⟨.inr (by decide), .inr (by decide)⟩
  have decoded : Descriptor.decode Expr text = .ok (.field "a") := by
    have read : Json.Document.read text = ⟨.object [(.ok "field", .text "a")], false⟩ := by cbv
    refine (Descriptor.decodeText_of_read read).trans ?_
    show Descriptor.decodeExpr Descriptor.maxDepth _ = _
    rw [Descriptor.decodeExpr]
    rfl
  have utf8 : String.fromUTF8? text.toUTF8 = some text := by
    rw [String.fromUTF8?, String.toUTF8_eq_toByteArray, dif_pos text.isValidUTF8]
    rfl
  have sql : (Expr.field "a").sql = "a" := by decide +kernel
  have rendered : Rendered .expr (.ok text.toUTF8) "a" := ⟨_, _, _, rfl, utf8, decoded, sql⟩
  have missing : ¬ ∃ sql, Rendered .expr (files (some "y")) sql := by
    rintro ⟨_, _, _, _, h, _⟩
    cases h
  exact ⟨parsed, (run_renders.2.1 env _ _ files parsed).1 _ rendered,
    (run_renders.2.1 env _ _ files fallback).2 missing,
    run_renders.2.2.1 {} env _ _ _ _ piped files standard parsed rfl rfl,
    run_renders.2.2.2 _ _ _ _ {} env files files closed ⟨.inl rfl, .inl rfl⟩ complete rfl⟩

end SqlSelect.CommandLine
