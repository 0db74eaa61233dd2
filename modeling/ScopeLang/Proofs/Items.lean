import ScopeLang.CommandLine.Parse

/-!
# Items of a command line

A well-formed command line is made of items: requests for verbosity and inputs,
each in one of its spellings.  An input that is a word of its own is held until
something settles it, so what a command line has come to is what it `Settles` to.

* **Forms**: how the words of an item are taken apart (`Argument.ofText_cluster`,
  `Argument.ofText_inline`, `Argument.ofText_plain`).
* **One item**: reading an item adds its requests and its input to what was met
  before, whatever is held at that point (`Progress.Settles.read_item`).
-/

namespace ScopeLang.CommandLine

/-! ## Spellings -/

/-- A word that is no option: a lone hyphen, or one with no hyphen in front. -/
structure Plain where
  text : String
  plain : text = "-" ∨ text.toList.head? ≠ some '-'

/-- A script that can stand right behind its letter. -/
structure Attached where
  text : String
  nonempty : text ≠ ""
  noEquals : text.toList.head? ≠ some '='

/-- An item of a command line.  Where an item is a cluster of letters, it is told
how many requests for verbosity stand in front of its own letter. -/
inductive Item where
  | verbose
  /-- One request more than those in front. -/
  | verboseLetter (before : Nat)
  | stdin
  | stdinLetter (before after : Nat)
  /-- The script behind an equals sign. -/
  | inlineValue (script : String)
  | inlineLetterValue (before : Nat) (script : String)
  | inlineLetterAttached (before : Nat) (script : Attached)
  /-- The script as a word of its own. -/
  | inlineWord (script : Plain)
  | inlineLetterWord (before : Nat) (script : Plain)
  | file (path : Plain)

/-- Letters behind a hyphen and some requests for verbosity. -/
def cluster (requests : Nat) (letters : List Char) : String :=
  String.ofList ('-' :: (List.replicate requests 'v' ++ letters))

namespace Item

/-- The words of an item. -/
def words : Item → List String
  | .verbose => ["--verbose"]
  | .verboseLetter before => [cluster before ['v']]
  | .stdin => ["--stdin"]
  | .stdinLetter before after => [cluster before ('s' :: List.replicate after 'v')]
  | .inlineValue script => ["--inline=" ++ script]
  | .inlineLetterValue before script => [cluster before ('i' :: '=' :: script.toList)]
  | .inlineLetterAttached before script => [cluster before ('i' :: script.text.toList)]
  | .inlineWord script => ["--inline", script.text]
  | .inlineLetterWord before script => [cluster before ['i'], script.text]
  | .file path => [path.text]

/-- How often an item asks for more verbosity. -/
def requests : Item → Nat
  | .verbose => 1
  | .verboseLetter before => before + 1
  | .stdinLetter before after => before + after
  | .inlineLetterValue before _ => before
  | .inlineLetterAttached before _ => before
  | .inlineLetterWord before _ => before
  | _ => 0

/-- The input that an item names, if any. -/
def input? : Item → Option Input
  | .verbose => none
  | .verboseLetter _ => none
  | .stdin => some .stdin
  | .stdinLetter _ _ => some .stdin
  | .inlineValue script => some (.inline script)
  | .inlineLetterValue _ script => some (.inline script)
  | .inlineLetterAttached _ script => some (.inline script.text)
  | .inlineWord script => some (.inline script.text)
  | .inlineLetterWord _ script => some (.inline script.text)
  | .file path => some (.file path.text)

end Item

/-! ## The form of a word -/

namespace Argument

theorem ofText_cluster (requests : Nat) {letter : Char} (letters : List Char)
    (notHyphen : letter ≠ '-') :
    ofText (CommandLine.cluster requests (letter :: letters)) =
      .cluster (List.replicate requests 'v' ++ letter :: letters) := by
  unfold ofText CommandLine.cluster
  rw [String.toList_ofList]
  cases requests with
  | zero => simp [notHyphen]
  | succ requests => simp [List.replicate_succ]

theorem ofText_inline (script : String) :
    ofText ("--inline=" ++ script) = .long "inline" (some script) := by
  unfold ofText
  rw [String.toList_append]
  simp

theorem ofText_plain (word : Plain) : ofText word.text = .plain word.text := by
  rcases word.plain with hyphen | notHyphen
  · rw [hyphen]
    rfl
  · unfold ofText
    split <;> simp_all

end Argument

/-! ## What was met -/

namespace Progress

/-- Some inputs and requests were met, and nothing is held. -/
def met (inputs : List Input) (requests : Nat) (trailing : Bool) : Progress where
  given := inputs
  verbosity := min maxVerbosity requests
  pending := .idle
  trailing := trailing

/-- `Settles progress inputs requests trailing`: with what is held, if anything
is, some inputs and requests were met. -/
def Settles (progress : Progress) (inputs : List Input) (requests : Nat) (trailing : Bool) :
    Prop :=
  progress.settle = .ok (met inputs requests trailing)

variable {progress : Progress} {inputs : List Input} {requests : Nat} {trailing : Bool}

theorem settles_met (inputs : List Input) (requests : Nat) (trailing : Bool) :
    Settles (met inputs requests trailing) inputs requests trailing :=
  rfl

theorem give_met {input : Input} (fresh : inputs.any (·.alike input) = false) (requests : Nat)
    (trailing : Bool) :
    (met inputs requests trailing).give input =
      .ok (met (inputs ++ [input]) requests trailing) := by
  have notMet : (met inputs requests trailing).has input = false := fresh
  unfold give
  rw [notMet]
  rfl

/-- What is held counts as met. -/
theorem settles_holding {input : Input} (fresh : inputs.any (·.alike input) = false)
    (requests : Nat) (trailing : Bool) :
    Settles { met inputs requests trailing with pending := .holding input } (inputs ++ [input])
      requests trailing :=
  give_met fresh requests trailing

theorem eq_of_give {settled : Progress} {input : Input} (h : progress.give input = .ok settled) :
    settled = { progress with given := progress.given ++ [input] } := by
  unfold give at h
  split at h
  · cases h
  · cases h
    rfl

namespace Settles

theorem trailing_eq (h : Settles progress inputs requests trailing) :
    progress.trailing = trailing := by
  obtain ⟨given, verbosity, pending, behind⟩ := progress
  cases pending with
  | idle =>
      cases h
      rfl
  | awaiting => cases h
  | holding input => exact (congrArg Progress.trailing (eq_of_give h)).symm

theorem hasPath_eq (h : Settles progress inputs requests trailing) :
    progress.hasPath = inputs.any Input.isFile := by
  obtain ⟨given, verbosity, pending, behind⟩ := progress
  cases pending with
  | idle =>
      cases h
      exact Bool.or_false _
  | awaiting => cases h
  | holding input =>
      have met_eq : inputs = given ++ [input] := congrArg Progress.given (eq_of_give h)
      rw [met_eq, List.any_append]
      simp [hasPath, Pending.isFile]

theorem throwSwitch_verbose (h : Settles progress inputs requests trailing) :
    progress.throwSwitch .verbose = .ok (met inputs (requests + 1) trailing) := by
  unfold throwSwitch
  rw [h]
  refine congrArg Except.ok ?_
  unfold met
  simp only [Progress.mk.injEq, true_and, and_true]
  omega

theorem throwSwitch_stdin (h : Settles progress inputs requests trailing)
    (fresh : inputs.any (·.alike .stdin) = false) :
    progress.throwSwitch .stdin = .ok (met (inputs ++ [.stdin]) requests trailing) := by
  unfold throwSwitch
  rw [h]
  exact give_met fresh requests trailing

/-- The requests in front of a cluster are met before its own letter. -/
theorem readCluster_requests (h : Settles progress inputs requests trailing) (more : Nat)
    (letters : List Char) :
    ∃ later, Settles later inputs (requests + more) trailing ∧
      progress.readCluster (List.replicate more 'v' ++ letters) = later.readCluster letters := by
  induction more generalizing progress requests with
  | zero => exact ⟨progress, h, rfl⟩
  | succ more ih =>
      obtain ⟨later, settles, reads⟩ := ih (settles_met inputs (requests + 1) trailing)
      rw [Nat.add_right_comm] at settles
      refine ⟨later, settles, ?_⟩
      rw [List.replicate_succ, List.cons_append, readCluster.eq_3 _ _ _ (by decide)]
      show (progress.throwSwitch .verbose >>= fun thrown => thrown.readCluster _) = _
      rw [h.throwSwitch_verbose]
      exact reads

/-- A path that no other path came before is held. -/
theorem readPath (h : Settles progress inputs requests trailing) {path : String}
    (fresh : inputs.any (·.alike (.file path)) = false) :
    progress.readPath path =
      .ok { met inputs requests trailing with pending := .holding (.file path) } := by
  have noPath : progress.hasPath = false := by
    rw [h.hasPath_eq, ← fresh]
    congr 1
    funext input
    cases input <;> rfl
  unfold Progress.readPath
  rw [noPath, h]
  rfl

/-! ## One item -/

theorem read_long (h : Settles progress inputs requests false) {text name : String}
    {value : Option String} (form : Argument.ofText text = .long name value) :
    progress.read text = progress.readLong name value := by
  unfold read
  rw [h.trailing_eq, form]
  rfl

theorem read_cluster (h : Settles progress inputs requests false) (before : Nat) {letter : Char}
    (letters : List Char) (notHyphen : letter ≠ '-') :
    ∃ later, Settles later inputs (requests + before) false ∧
      progress.read (cluster before (letter :: letters)) =
        later.readCluster (letter :: letters) := by
  obtain ⟨later, settles, reads⟩ := h.readCluster_requests before (letter :: letters)
  refine ⟨later, settles, ?_⟩
  unfold read
  rw [h.trailing_eq, Argument.ofText_cluster before letters notHyphen]
  exact reads

theorem read_plain (h : Settles progress inputs requests false) (word : Plain) :
    progress.read word.text = progress.readPath word.text := by
  unfold read
  rw [h.trailing_eq, Argument.ofText_plain]
  obtain ⟨given, verbosity, pending, behind⟩ := progress
  cases pending with
  | idle => rfl
  | awaiting => cases h
  | holding input => rfl

theorem readCluster_all (h : Settles progress inputs requests trailing) (more : Nat) :
    ∃ later, Settles later inputs (requests + more) trailing ∧
      progress.readCluster (List.replicate more 'v') = .ok later := by
  obtain ⟨later, settles, reads⟩ := h.readCluster_requests more []
  rw [List.append_nil] at reads
  exact ⟨later, settles, reads⟩

theorem readCluster_awaiting (h : Settles progress inputs requests trailing) :
    progress.readCluster ['i'] =
      .ok { met inputs requests trailing with pending := .awaiting } := by
  rw [readCluster, h]
  rfl

theorem readCluster_value (h : Settles progress inputs requests trailing) {script : String}
    (fresh : inputs.any (·.alike (.inline script)) = false) :
    progress.readCluster ('i' :: '=' :: script.toList) =
      .ok (met (inputs ++ [.inline script]) requests trailing) := by
  rw [readCluster, h, ← give_met fresh]
  show (met inputs requests trailing).give (.inline (String.ofList script.toList)) = _
  rw [String.ofList_toList]

theorem readCluster_attached (h : Settles progress inputs requests trailing) {script : Attached}
    (fresh : inputs.any (·.alike (.inline script.text)) = false) :
    progress.readCluster ('i' :: script.text.toList) =
      .ok (met (inputs ++ [.inline script.text]) requests trailing) := by
  rw [readCluster, h, ← give_met fresh]
  dsimp only [bind, Except.bind]
  split
  · next empty => exact absurd (String.toList_eq_nil_iff.1 empty) script.nonempty
  · next equals => exact absurd (congrArg List.head? equals) script.noEquals
  · rw [String.ofList_toList]

/-- The word behind the option for an inline script is the script. -/
theorem read_awaited (inputs : List Input) (requests : Nat) (script : Plain) :
    ({ met inputs requests false with pending := .awaiting } : Progress).read script.text =
      .ok { met inputs requests false with pending := .holding (.inline script.text) } := by
  unfold read
  rw [Argument.ofText_plain]
  rfl

end Settles

theorem exists_of_read {word : String} {later : Progress}
    (reads : progress.read word = .ok later) (settles : Settles later inputs requests trailing) :
    ∃ later, [word].foldlM read progress = .ok later ∧
      Settles later inputs requests trailing := by
  refine ⟨later, ?_, settles⟩
  rw [List.foldlM_cons, reads]
  rfl

theorem exists_of_reads {first second : String} {middle later : Progress}
    (reads : progress.read first = .ok middle) (reads' : middle.read second = .ok later)
    (settles : Settles later inputs requests trailing) :
    ∃ later, [first, second].foldlM read progress = .ok later ∧
      Settles later inputs requests trailing := by
  obtain ⟨later, all, settles⟩ := exists_of_read reads' settles
  refine ⟨later, ?_, settles⟩
  rw [List.foldlM_cons, reads]
  exact all

/-- **One item.** Reading an item adds its requests and its input. -/
theorem Settles.read_item (h : Settles progress inputs requests false) (item : Item)
    (fresh : ∀ input ∈ item.input?, inputs.any (·.alike input) = false) :
    ∃ later, item.words.foldlM read progress = .ok later ∧
      Settles later (inputs ++ item.input?.toList) (requests + item.requests) false := by
  cases item with
  | verbose =>
      show ∃ later, _ ∧ Settles later (inputs ++ []) (requests + 1) false
      rw [List.append_nil]
      have form : Argument.ofText "--verbose" = .long "verbose" none := rfl
      exact exists_of_read ((h.read_long form).trans h.throwSwitch_verbose) (settles_met ..)
  | verboseLetter before =>
      show ∃ later, _ ∧ Settles later (inputs ++ []) (requests + (before + 1)) false
      rw [List.append_nil, ← Nat.add_assoc]
      obtain ⟨middle, settles, reads⟩ := h.read_cluster before [] (by decide : 'v' ≠ '-')
      obtain ⟨later, settles, reads'⟩ := settles.readCluster_all 1
      exact exists_of_read (reads.trans reads') settles
  | stdin =>
      have form : Argument.ofText "--stdin" = .long "stdin" none := rfl
      have thrown := h.throwSwitch_stdin (fresh .stdin rfl)
      exact exists_of_read ((h.read_long form).trans thrown) (settles_met ..)
  | stdinLetter before after =>
      show ∃ later, _ ∧ Settles later (inputs ++ [.stdin]) (requests + (before + after)) false
      rw [← Nat.add_assoc]
      obtain ⟨middle, settles, reads⟩ :=
        h.read_cluster before (List.replicate after 'v') (by decide : 's' ≠ '-')
      have thrown := settles.throwSwitch_stdin (fresh .stdin rfl)
      -- the requests behind the letter are read when standard input is already named
      obtain ⟨later, settles, reads'⟩ := (settles_met _ _ false).readCluster_all after
      refine exists_of_read (reads.trans ?_) settles
      rw [readCluster.eq_3 _ _ _ (by decide)]
      show (middle.throwSwitch .stdin >>= fun thrown => thrown.readCluster _) = _
      rw [thrown]
      exact reads'
  | inlineValue script =>
      refine exists_of_read ((h.read_long (Argument.ofText_inline script)).trans ?_)
        (settles_met ..)
      show (progress.settle >>= fun settled => settled.give (.inline script)) = _
      rw [h]
      exact give_met (fresh (.inline script) rfl) requests false
  | inlineLetterValue before script =>
      obtain ⟨middle, settles, reads⟩ :=
        h.read_cluster before ('=' :: script.toList) (by decide : 'i' ≠ '-')
      have given := settles.readCluster_value (fresh (.inline script) rfl)
      exact exists_of_read (reads.trans given) (settles_met ..)
  | inlineLetterAttached before script =>
      obtain ⟨middle, settles, reads⟩ :=
        h.read_cluster before script.text.toList (by decide : 'i' ≠ '-')
      have given := settles.readCluster_attached (fresh (.inline script.text) rfl)
      exact exists_of_read (reads.trans given) (settles_met ..)
  | inlineWord script =>
      refine exists_of_reads ((h.read_long rfl).trans ?_) (read_awaited _ _ script)
        (settles_holding (fresh (.inline script.text) rfl) ..)
      show (progress.settle >>= fun settled => _) = _
      rw [h]
      rfl
  | inlineLetterWord before script =>
      obtain ⟨middle, settles, reads⟩ := h.read_cluster before [] (by decide : 'i' ≠ '-')
      exact exists_of_reads (reads.trans settles.readCluster_awaiting) (read_awaited _ _ script)
        (settles_holding (fresh (.inline script.text) rfl) ..)
  | file path =>
      have fresh := fresh (.file path.text) rfl
      exact exists_of_read ((h.read_plain path).trans (h.readPath fresh))
        (settles_holding fresh ..)

end Progress

end ScopeLang.CommandLine
