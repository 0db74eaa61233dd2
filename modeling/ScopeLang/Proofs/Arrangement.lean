import ScopeLang.Proofs.Items

/-!
# Arrangements of a command line

The items of a command line can stand in any order, and a path can come last,
behind a separator.

* **All items**: reading some items adds all that they ask for
  (`Progress.Settles.read_items`).
* **Answer**: only the inputs, in their order, and the number of requests for
  verbosity decide what the command line comes to (`Line.parseCall_arguments`).
* **Words**: a refusal names the inputs that are missing, or those that were given,
  in their order (`message_noInput`, `message_pair`, `message_triple`).
-/

namespace ScopeLang.CommandLine

/-! ## Well-formed command lines -/

/-- The inputs of some items and of a path behind them, in order. -/
def inputsOf (items : List Item) (last : Option String) : List Input :=
  items.filterMap Item.input? ++ (last.map Input.file).toList

/-- How often some items ask for more verbosity. -/
def requestsOf : List Item → Nat
  | [] => 0
  | item :: items => item.requests + requestsOf items

/-- A well-formed command line names an input at most once in each way. -/
structure Line where
  items : List Item
  /-- A path behind the separator. -/
  last : Option String
  distinct : (inputsOf items last).Pairwise fun first second => first.alike second = false

namespace Line

def arguments (line : Line) : List String :=
  line.items.flatMap Item.words ++
    match line.last with
    | none => []
    | some path => ["--", path]

def inputs (line : Line) : List Input :=
  inputsOf line.items line.last

def requests (line : Line) : Nat :=
  requestsOf line.items

end Line

/-- The usage that a refusal shows. -/
def usageOf (requests : Nat) : Usage :=
  .brief (if requests = 0 then [] else [.verbose])

/-- What a command line comes to that names some inputs, by their number. -/
def answer (inputs : List Input) (requests : Nat) : Except Refusal Options :=
  match inputs with
  | [] => .error (.noInput (usageOf requests))
  | [input] => .ok (optionsOf [input] (min maxVerbosity requests))
  | first :: others => .error (.conflict first others (usageOf requests))

/-! ## All items -/

namespace Progress

variable {progress : Progress} {inputs : List Input} {requests : Nat} {trailing : Bool}

theorem fresh_of_pairwise {more : List Input} {input : Input}
    (distinct : (inputs ++ more).Pairwise fun first second => first.alike second = false)
    (mem : input ∈ more) : inputs.any (·.alike input) = false := by
  rw [List.any_eq_false]
  intro other met
  have differ := (List.pairwise_append.1 distinct).2.2 other met input mem
  simp [differ]

theorem filterMap_input?_cons (item : Item) (items : List Item) :
    (item :: items).filterMap Item.input? =
      item.input?.toList ++ items.filterMap Item.input? := by
  rw [List.filterMap_cons]
  cases item.input? <;> rfl

/-- **All items.** Reading some items adds all their requests and inputs. -/
theorem Settles.read_items (h : Settles progress inputs requests false) (items : List Item)
    (distinct : (inputs ++ items.filterMap Item.input?).Pairwise
      fun first second => first.alike second = false) :
    ∃ later, (items.flatMap Item.words).foldlM read progress = .ok later ∧
      Settles later (inputs ++ items.filterMap Item.input?)
        (requests + requestsOf items) false := by
  -- an item is new among all that was met before it, so the inputs met so far are carried along
  induction items generalizing progress inputs requests with
  | nil =>
      refine ⟨progress, rfl, ?_⟩
      rw [List.filterMap_nil, List.append_nil]
      exact h
  | cons item items ih =>
      rw [filterMap_input?_cons] at distinct ⊢
      have fresh : ∀ input ∈ item.input?, inputs.any (·.alike input) = false := by
        intro input named
        exact fresh_of_pairwise distinct
          (List.mem_append_left _ (Option.mem_toList.2 named))
      obtain ⟨middle, reads, settles⟩ := h.read_item item fresh
      rw [← List.append_assoc] at distinct ⊢
      obtain ⟨later, reads', settles⟩ := ih settles distinct
      refine ⟨later, ?_, ?_⟩
      · rw [List.flatMap_cons, List.foldlM_append, reads]
        exact reads'
      · rw [requestsOf, ← Nat.add_assoc]
        exact settles

theorem settle_behind_separator (progress : Progress) :
    ({ progress with trailing := true } : Progress).settle =
      progress.settle.map fun settled => { settled with trailing := true } := by
  obtain ⟨given, verbosity, pending, trailing⟩ := progress
  cases pending with
  | idle => rfl
  | awaiting => rfl
  | holding input =>
      by_cases repeated : given.any (·.alike input) = true
      · simp [settle, give, has, repeated, Except.map]
      · simp [settle, give, has, repeated, Except.map]

/-- The separator settles nothing. -/
theorem Settles.behind_separator (h : Settles progress inputs requests false) :
    Settles { progress with trailing := true } inputs requests true := by
  unfold Settles
  rw [settle_behind_separator, h]
  rfl

theorem Settles.read_last (h : Settles progress inputs requests false) {path : String}
    (fresh : inputs.any (·.alike (.file path)) = false) :
    ∃ later, ["--", path].foldlM read progress = .ok later ∧
      Settles later (inputs ++ [.file path]) requests true := by
  have separated : progress.read "--" = .ok { progress with trailing := true } := by
    unfold read
    rw [h.trailing_eq]
    rfl
  have behind := h.behind_separator
  exact exists_of_reads separated (behind.readPath fresh) (settles_holding fresh ..)

theorem usage_met (inputs : List Input) (requests : Nat) (trailing : Bool) :
    (met inputs requests trailing).usage = usageOf requests := by
  unfold usage switches met usageOf
  by_cases none : requests = 0
  · simp [none]
  · have some_met : min maxVerbosity requests ≠ 0 := by
      unfold maxVerbosity
      omega
    simp [none, some_met]

theorem Settles.finish (h : Settles progress inputs requests trailing) :
    progress.finish = (answer inputs requests).mapError .refused := by
  have shown := usage_met inputs requests trailing
  unfold Progress.finish
  rw [h]
  rcases inputs with _ | ⟨first, _ | ⟨second, others⟩⟩
  · show Except.error (Reply.refused (.noInput (met _ _ _).usage)) = _
    rw [shown]
    rfl
  · rfl
  · show Except.error (Reply.refused (.conflict _ _ (met _ _ _).usage)) = _
    rw [shown]
    rfl

end Progress

/-! ## Whole command lines -/

/-- There are three ways to name an input. -/
theorem length_le_three {inputs : List Input}
    (distinct : inputs.Pairwise fun first second => first.alike second = false) :
    inputs.length ≤ 3 := by
  rcases inputs with _ | ⟨first, _ | ⟨second, _ | ⟨third, _ | ⟨fourth, others⟩⟩⟩⟩
  · simp
  · simp
  · simp
  · simp
  · -- the fourth would be named like one of the first three
    simp only [List.pairwise_cons, List.mem_cons, forall_eq_or_imp] at distinct
    obtain ⟨⟨ab, ac, ad, -⟩, ⟨bc, bd, -⟩, ⟨cd, -⟩, -⟩ := distinct
    cases first <;> cases second <;> cases ab <;> cases third <;> cases ac <;> cases bc <;>
      cases fourth <;> cases ad <;> cases bd <;> cases cd

theorem requestsOf_perm {items others : List Item} (reordered : items.Perm others) :
    requestsOf items = requestsOf others := by
  induction reordered with
  | nil => rfl
  | cons item _ ih => simp only [requestsOf, ih]
  | swap first second items =>
      simp only [requestsOf]
      omega
  | trans _ _ ih ih' => exact ih.trans ih'

namespace Line

theorem parse_arguments (line : Line) :
    parse line.arguments = (answer line.inputs line.requests).mapError .refused := by
  have start : Progress.Settles {} [] 0 false := rfl
  obtain ⟨items, last, distinct⟩ := line
  unfold parse arguments inputs requests
  dsimp only
  unfold inputsOf at distinct ⊢
  obtain ⟨middle, reads, settles⟩ := start.read_items items (List.pairwise_append.1 distinct).1
  rw [List.nil_append, Nat.zero_add] at settles
  rw [List.foldlM_append, reads]
  cases last with
  | none =>
      show middle.finish = _
      rw [settles.finish]
      simp
  | some path =>
      have fresh := Progress.fresh_of_pairwise distinct
        (List.mem_singleton.2 rfl : Input.file path ∈ [Input.file path])
      obtain ⟨later, reads', settles⟩ := settles.read_last fresh
      show (["--", path].foldlM Progress.read middle >>= Progress.finish) = _
      rw [reads']
      exact settles.finish

/-- **Answer.** A well-formed command line is answered by what it has named. -/
theorem parseCall_arguments (program : String) (line : Line) :
    parseCall (program :: line.arguments) =
      (answer line.inputs line.requests).mapError
        fun refusal => (.refused refusal, programName program) := by
  show (parse line.arguments).mapError (·, programName program) = _
  rw [line.parse_arguments]
  cases answer line.inputs line.requests <;> rfl

theorem parseCall_eq_refused_iff {program : String} {line : Line} {refusal : Refusal} :
    parseCall (program :: line.arguments) = .error (.refused refusal, programName program) ↔
      answer line.inputs line.requests = .error refusal := by
  rw [parseCall_arguments]
  cases answer line.inputs line.requests with
  | error other =>
      show Except.error (Reply.refused other, programName program) = _ ↔ _
      simp
  | ok options =>
      show Except.ok options = _ ↔ _
      simp

theorem parseCall_eq_ok_iff {program : String} {line : Line} {options : Options} :
    parseCall (program :: line.arguments) = .ok options ↔
      answer line.inputs line.requests = .ok options := by
  rw [parseCall_arguments]
  cases answer line.inputs line.requests with
  | error refusal =>
      show Except.error (Reply.refused refusal, programName program) = _ ↔ _
      simp
  | ok other =>
      show Except.ok other = _ ↔ _
      simp

theorem inputs_perm {line other : Line} (reordered : other.items.Perm line.items)
    (sameLast : other.last = line.last) : other.inputs.Perm line.inputs := by
  unfold inputs inputsOf
  rw [sameLast]
  exact (reordered.filterMap Item.input?).append_right _

end Line

/-! ## What an answer says -/

section Answer

variable {inputs : List Input} {requests : Nat}

theorem answer_eq_noInput_iff {usage : Usage} :
    answer inputs requests = .error (.noInput usage) ↔
      inputs = [] ∧ usage = usageOf requests := by
  rcases inputs with _ | ⟨first, _ | ⟨second, others⟩⟩
  · simp [answer, eq_comm]
  · simp [answer]
  · simp [answer]

theorem answer_eq_conflict_iff {first : Input} {others : List Input} {usage : Usage} :
    answer inputs requests = .error (.conflict first others usage) ↔
      inputs = first :: others ∧ others ≠ [] ∧ usage = usageOf requests := by
  rcases inputs with _ | ⟨head, _ | ⟨second, tail⟩⟩
  · simp [answer]
  · simp only [answer]
    grind
  · simp only [answer]
    grind

/-- The options name the input and no other. -/
def Input.Only (options : Options) : Input → Prop
  | .inline script => options.inline = some script ∧ options.stdin = false ∧ options.file = none
  | .stdin => options.inline = none ∧ options.stdin = true ∧ options.file = none
  | .file path => options.inline = none ∧ options.stdin = false ∧ options.file = some path

theorem optionsOf_eq_iff {options : Options} {input : Input} {verbosity : Nat} :
    optionsOf [input] verbosity = options ↔
      input.Only options ∧ options.verbosity = verbosity := by
  obtain ⟨inline, stdin, level, file⟩ := options
  cases input <;> simp [optionsOf, Input.Only, Input.script?, Input.path?] <;> grind

theorem answer_eq_ok_iff {options : Options} :
    answer inputs requests = .ok options ↔
      ∃ input, inputs = [input] ∧ input.Only options ∧
        options.verbosity = min maxVerbosity requests := by
  rcases inputs with _ | ⟨input, _ | ⟨second, others⟩⟩
  · simp [answer]
  · simp [answer, optionsOf_eq_iff]
  · simp [answer]

end Answer

/-! ## What a refusal says -/

/-- An input as a refusal names it. -/
def Input.called : Input → String
  | .inline _ => "--inline <INLINE>"
  | .stdin => "--stdin"
  | .file _ => "[FILE]"

/-- The text of a refusal: a complaint, the usage under the program's name, and where
to find the help. -/
def refusalText (complaint name : String) (requests : Nat) : String :=
  "error: " ++ complaint ++ "\n\n" ++
    "Usage: " ++ name ++ (if requests = 0 then "" else " --verbose...") ++
    " <FILE|--inline <INLINE>|--stdin>" ++ "\n\n" ++
    "For more information, try '--help'.\n"

theorem Input.label_eq_called (input : Input) : input.label = input.called := by
  cases input <;> rfl

theorem line_usageOf (name : String) (requests : Nat) :
    (usageOf requests).line name =
      "Usage: " ++ name ++ (if requests = 0 then "" else " --verbose...") ++
        " <FILE|--inline <INLINE>|--stdin>" := by
  have choice : " " ++ inputChoice = " <FILE|--inline <INLINE>|--stdin>" := by decide
  have flags : switchList (if requests = 0 then [] else [.verbose]) =
      if requests = 0 then "" else " --verbose..." := by
    split <;> decide
  show "Usage: " ++ name ++ switchList _ ++ " " ++ inputChoice = _
  rw [String.append_assoc, choice, flags]

section Message

variable (shown : String → String) (program : String) (requests : Nat)

/-- A refusal without a tip, by what it says. -/
theorem message_of_usage {refusal : Refusal} (usage : refusal.usage? = some (usageOf requests))
    (noTip : refusal.tip? shown = none) :
    refusal.message shown program =
      refusalText (refusal.text shown) (shown program) requests := by
  unfold Refusal.message refusalText
  rw [usage, noTip]
  show "error: " ++ _ ++ "\n\n" ++ "" ++ ((usageOf requests).line (shown program) ++ "\n\n") ++
    _ = _
  rw [line_usageOf, String.append_empty]
  simp only [String.append_assoc]

theorem message_noInput :
    (Refusal.noInput (usageOf requests)).message shown program =
      refusalText
        ("the following required arguments were not provided:\n  " ++
          "<FILE|--inline <INLINE>|--stdin>")
        (shown program) requests := by
  have choice : inputChoice = "<FILE|--inline <INLINE>|--stdin>" := by decide
  rw [message_of_usage shown program requests rfl rfl, ← choice]
  rfl

theorem message_pair (first second : Input) :
    (Refusal.conflict first [second] (usageOf requests)).message shown program =
      refusalText
        ("the argument '" ++ first.called ++ "' cannot be used with" ++
          (" '" ++ second.called ++ "'"))
        (shown program) requests := by
  rw [message_of_usage shown program requests rfl rfl, ← first.label_eq_called,
    ← second.label_eq_called]
  rfl

theorem message_triple (first second third : Input) :
    (Refusal.conflict first [second, third] (usageOf requests)).message shown program =
      refusalText
        ("the argument '" ++ first.called ++ "' cannot be used with" ++
          (":" ++ ("\n  " ++ second.called ++ ("\n  " ++ third.called))))
        (shown program) requests := by
  have joined (one two : String) : String.join [one, two] = one ++ two := by
    simp [String.join]
  rw [message_of_usage shown program requests rfl rfl, ← first.label_eq_called,
    ← second.label_eq_called, ← third.label_eq_called, ← joined]
  rfl

end Message

namespace Line

/-- **Words.** A well-formed command line is refused with a text. -/
theorem tryParse_arguments (program : String) (line : Line) :
    tryParse (program :: line.arguments) =
      (answer line.inputs line.requests).mapError
        fun refusal => refusal.message (Text.strip .whole) (programName program) := by
  unfold tryParse
  rw [parseCall_arguments]
  cases answer line.inputs line.requests <;> rfl

/-- What a call of the program with a well-formed command line comes to. -/
structure Answered (program : String) (line : Line) : Prop where
  noInput : ∀ usage,
    parseCall (program :: line.arguments) =
        .error (.refused (.noInput usage), programName program) ↔
      line.inputs = [] ∧ usage = usageOf line.requests
  /-- The inputs are named in their order. -/
  conflict : ∀ first others usage,
    parseCall (program :: line.arguments) =
        .error (.refused (.conflict first others usage), programName program) ↔
      line.inputs = first :: others ∧ (others.length = 1 ∨ others.length = 2) ∧
        usage = usageOf line.requests
  /-- Where no input is named, the refusal says which ones there are. -/
  noInputText : line.inputs = [] →
    tryParse (program :: line.arguments) = .error (refusalText
      ("the following required arguments were not provided:\n  " ++
        "<FILE|--inline <INLINE>|--stdin>")
      (Text.strip .whole (programName program)) line.requests)
  pairText : ∀ first second, line.inputs = [first, second] →
    tryParse (program :: line.arguments) = .error (refusalText
      ("the argument '" ++ first.called ++ "' cannot be used with" ++
        (" '" ++ second.called ++ "'"))
      (Text.strip .whole (programName program)) line.requests)
  tripleText : ∀ first second third, line.inputs = [first, second, third] →
    tryParse (program :: line.arguments) = .error (refusalText
      ("the argument '" ++ first.called ++ "' cannot be used with" ++
        (":" ++ ("\n  " ++ second.called ++ ("\n  " ++ third.called))))
      (Text.strip .whole (programName program)) line.requests)
  accepted : ∀ options,
    parseCall (program :: line.arguments) = .ok options ↔
      ∃ input, line.inputs = [input] ∧ input.Only options ∧
        options.verbosity = min 255 line.requests
  /-- The order of the items does not matter, unless two of them conflict. -/
  anyOrder : ∀ other : Line, other.items.Perm line.items → other.last = line.last →
    line.inputs.length ≤ 1 →
    parseCall (program :: other.arguments) = parseCall (program :: line.arguments)

/-- **Arrangements.** A well-formed command line is refused for want of an input
if it names none, and for a conflict if it names two or three.  With one input it
is accepted, with that input and the number of requests for verbosity, however
its items are spelled and arranged. -/
theorem parseCall_answered (program : String) (line : Line) : Answered program line := by
  refine ⟨fun usage => ?_, fun first others usage => ?_, fun none => ?_,
    fun first second named => ?_, fun first second third named => ?_, fun options => ?_, ?_⟩
  · rw [parseCall_eq_refused_iff, answer_eq_noInput_iff]
  · rw [parseCall_eq_refused_iff, answer_eq_conflict_iff]
    have atMost : line.inputs.length ≤ 3 := length_le_three line.distinct
    refine and_congr_right fun named => and_congr_left fun _ => ?_
    rw [named, List.length_cons] at atMost
    rw [← List.length_pos_iff]
    omega
  · rw [tryParse_arguments, none, ← message_noInput]
    rfl
  · rw [tryParse_arguments, named, ← message_pair]
    rfl
  · rw [tryParse_arguments, named, ← message_triple]
    rfl
  · rw [parseCall_eq_ok_iff, answer_eq_ok_iff]
    rfl
  · intro other reordered sameLast single
    have same : other.inputs = line.inputs := by
      have perm := inputs_perm reordered sameLast
      generalize line.inputs = inputs at perm single
      rcases inputs with _ | ⟨input, _ | ⟨second, others⟩⟩
      · exact perm.eq_nil
      · exact List.perm_singleton.1 perm
      · simp at single
    have requests : other.requests = line.requests := requestsOf_perm reordered
    rw [parseCall_arguments, parseCall_arguments, same, requests]

/-- All three inputs, each spelled so that it can be taken for something else. -/
def crowded : Line where
  items := [.stdinLetter 1 2, .verbose, .inlineLetterWord 1 { text := "-", plain := .inl rfl }]
  last := some "--help"
  distinct := by decide

theorem parseCall_answered_crowded :
    crowded.arguments = ["-vsvv", "--verbose", "-vi", "-", "--", "--help"] ∧
      parseCall ("bin/scopescript" :: crowded.arguments) =
        .error (.refused (.conflict .stdin [.inline "-", .file "--help"] (.brief [.verbose])),
          "scopescript") ∧
      tryParse ("bin/scopescript" :: crowded.arguments) =
        .error ("error: the argument '--stdin' cannot be used with:\n" ++
          "  --inline <INLINE>\n  [FILE]\n\n" ++
          "Usage: scopescript --verbose... <FILE|--inline <INLINE>|--stdin>\n\n" ++
          "For more information, try '--help'.\n") := by
  have answered := parseCall_answered "bin/scopescript" crowded
  refine ⟨by decide, (answered.conflict _ _ _).2 ⟨rfl, .inr rfl, rfl⟩, ?_⟩
  exact (answered.tripleText _ _ _ rfl).trans (congrArg Except.error (by decide +kernel))

end Line

end ScopeLang.CommandLine
