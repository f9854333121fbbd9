import Mathlib.Data.List.Infix
import SqlScribe.CommandLine.Arguments
import SqlScribe.Proofs.Checked
import SqlScribe.Proofs.Pieces

/-!
# The two spellings of an option

The value of an option is the next argument, or it stands behind an equals sign
in the same argument.  Both spellings mean the same for every value that does
not begin with the option and an equals sign itself: from the argument that
holds both, the option and the equals sign are taken off as often as they stand
there, while the next argument is taken as it is.

`AtOption` says that the arguments so far end where an option is expected.
Arguments of this kind treat alike what is read alike after them: `read_congr`.
-/

namespace SqlScribe

/-! ## Characters that are not blank -/

namespace Text

/-- How many characters of a text are not blank. -/
def ink (text : List Char) : Nat := text.countP fun c => !isBlank c

theorem ink_append (first second : List Char) : ink (first ++ second) = ink first + ink second :=
  List.countP_append

theorem ink_trimStart (text : List Char) : ink (trimStart text) = ink text := by
  induction text with
  | nil => rfl
  | cons c rest step =>
      cases blank : isBlank c with
      | true => simpa [trimStart, ink, blank] using step
      | false => simp [trimStart, ink, blank]

/-- Only blanks are taken off a text. -/
theorem ink_trim (text : List Char) : ink (trim text) = ink text := by
  have backwards (text : List Char) : ink text.reverse = ink text := List.countP_reverse
  rw [trim, backwards, ink_trimStart, backwards, ink_trimStart]

end Text

namespace CommandLine

open Checked Text

variable {topic : Topic} {flag : Flag} {argument value : String} {copies : Nat}
  {before after rest : List String} {options : Options}

/-! ## Lists of names -/

/-- What is not blank in a list of names is what is not blank in the pieces of its text. -/
theorem ink_namesInList (text : String) :
    ink ((namesInList text).flatMap String.toList) = ink (splitAt ',' text.toList).flatten := by
  rw [namesInList]
  induction splitAt ',' text.toList with
  | nil => rfl
  | cons piece others step =>
      rw [List.map_cons, List.flatten_cons, ink_append, ← step, ← ink_trim piece, ← ink_append]
      cases trim piece with
      | nil => simp
      | cons c more => simp

/-! ## Arguments of options -/

namespace Flag

/-- Columns are only excluded when rows are written; every other option belongs to all commands. -/
def Offered (topic : Topic) (flag : Flag) : Prop := flag = .exclude → topic = .write

theorem allowedFor_iff : flag.allowedFor topic ↔ flag.Offered topic := by
  cases flag <;> simp [allowedFor, Offered]

/-- The argument that holds the option and its value. -/
def attached (flag : Flag) (value : String) : String := flag.text ++ "=" ++ value

/-- The value behind some copies of the option and an equals sign. -/
def behind (flag : Flag) (value : String) : (copies : Nat) → String
  | 0 => value
  | copies + 1 => flag.attached (flag.behind value copies)

theorem toList_attached (flag : Flag) (value : String) :
    (flag.attached value).toList = flag.opening ++ value.toList := by
  simp [attached, opening]

theorem equals_not_mem_text (flag : Flag) : '=' ∉ flag.text.toList := by
  cases flag <;> decide

theorem mem_all (flag : Flag) : flag ∈ all := by
  cases flag <;> decide

theorem text_injective : Function.Injective text := by
  have distinct : ∀ flag ∈ all, ∀ other ∈ all, flag.text = other.text → flag = other := by decide
  intro flag other
  exact distinct flag flag.mem_all other other.mem_all

/-- An option that alone passes a test is the one that is found. -/
theorem find?_all_eq_some {accepts : Flag → Bool} (own : accepts flag)
    (only : ∀ other, accepts other → other = flag) : all.find? accepts = some flag := by
  cases found : all.find? accepts with
  | none => exact absurd own (List.find?_eq_none.1 found flag flag.mem_all)
  | some other => rw [only other (List.find?_some found)]

theorem ofArgument?_text (offered : flag.Offered topic) :
    ofArgument? topic flag.text = some flag := by
  apply find?_all_eq_some
  · simp [allowedFor_iff.2 offered]
  · intro other accepted
    simp only [Bool.and_eq_true, beq_iff_eq] at accepted
    exact text_injective accepted.2

theorem ofArgument?_eq_none
    (plain : ∀ flag : Flag, flag.Offered topic → argument ≠ flag.text) :
    ofArgument? topic argument = none := by
  refine List.find?_eq_none.2 fun flag _ accepted => ?_
  simp only [Bool.and_eq_true, beq_iff_eq] at accepted
  exact plain flag (allowedFor_iff.1 accepted.1) accepted.2.symm

theorem attached_ne (free : '=' ∉ argument.toList) : flag.attached value ≠ argument := by
  rintro rfl
  apply free
  simp [attached]

/-- The argument of an option with its value begins like that of no other option. -/
theorem eq_of_opening_prefix {other : Flag}
    (begins : other.opening <+: (flag.attached value).toList) : other = flag := by
  rcases begins with ⟨more, same⟩
  have parts := congrArg (splitOnce? '=') same
  rw [toList_attached, opening, opening, List.append_assoc, List.append_assoc,
    List.singleton_append, List.singleton_append, splitOnce?_append other.equals_not_mem_text,
    splitOnce?_append flag.equals_not_mem_text] at parts
  have names : other.text.toList = flag.text.toList := congrArg Prod.fst (Option.some.inj parts)
  exact text_injective (String.toList_inj.1 names)

theorem length_lt_attached (flag : Flag) (value : String) :
    value.toList.length < (flag.attached value).toList.length := by
  rw [toList_attached, opening, List.length_append, List.length_append, List.length_singleton]
  omega

theorem length_le_behind (flag : Flag) (value : String) (copies : Nat) :
    copies ≤ (flag.behind value copies).toList.length := by
  induction copies with
  | zero => exact Nat.zero_le _
  | succ copies step => exact Nat.lt_of_le_of_lt step (length_lt_attached flag _)

theorem behind_succ_ne (flag : Flag) (value : String) (copies : Nat) :
    flag.behind value (copies + 1) ≠ value := by
  have longer : value.toList.length < (flag.behind value (copies + 1)).toList.length := by
    induction copies with
    | zero => exact length_lt_attached flag value
    | succ copies step => exact step.trans (length_lt_attached flag _)
  intro same
  rw [same] at longer
  exact Nat.lt_irrefl _ longer

/-- All copies in front of a value are taken off if there are rounds enough. -/
theorem withoutOpenings_behind (plain : ¬ flag.opening <+: value.toList) {times : Nat}
    (enough : copies ≤ times) :
    withoutOpenings flag.opening times (flag.behind value copies).toList = value.toList := by
  induction copies generalizing times with
  | zero =>
      cases times with
      | zero => rfl
      | succ times =>
          rw [behind, withoutOpenings, if_neg (mt List.isPrefixOf_iff_prefix.1 plain)]
  | succ copies step =>
      rcases Nat.exists_eq_add_of_le' enough with ⟨more, rfl⟩
      have begins := List.isPrefixOf_iff_prefix.2
        (List.prefix_append flag.opening (flag.behind value copies).toList)
      rw [behind, toList_attached, ← Nat.add_assoc, withoutOpenings, if_pos begins, List.drop_left]
      exact step (Nat.le_add_left _ _)

theorem ofAssignment?_attached (offered : flag.Offered topic)
    (plain : ¬ flag.opening <+: value.toList) (copies : Nat) :
    ofAssignment? topic (flag.behind value (copies + 1)) = some (flag, value) := by
  have found :
      (all.find? fun other => other.allowedFor topic &&
        other.opening.isPrefixOf (flag.behind value (copies + 1)).toList) = some flag := by
    apply find?_all_eq_some
    · rw [allowedFor_iff.2 offered, Bool.true_and, List.isPrefixOf_iff_prefix, behind,
        toList_attached]
      exact List.prefix_append _ _
    · intro other accepted
      simp only [Bool.and_eq_true, List.isPrefixOf_iff_prefix] at accepted
      exact eq_of_opening_prefix accepted.2
  rw [ofAssignment?, found, Option.map_some,
    withoutOpenings_behind plain (length_le_behind flag value _), String.ofList_toList]

/-- Every value stands behind copies of the option's opening, and without them has none. -/
theorem exists_behind (flag : Flag) (value : String) :
    ∃ copies rest, value = flag.behind rest copies ∧ ¬ flag.opening <+: rest.toList := by
  induction long : value.toList.length using Nat.strong_induction_on generalizing value with
  | _ length step =>
      by_cases begins : flag.opening <+: value.toList
      · rcases begins with ⟨more, same⟩
        obtain rfl : flag.attached (String.ofList more) = value := by
          rw [← String.toList_inj, toList_attached, String.toList_ofList, same]
        have shorter := long ▸ length_lt_attached flag (String.ofList more)
        rcases step _ shorter _ rfl with ⟨copies, rest, written, plain⟩
        exact ⟨copies + 1, rest, congrArg flag.attached written, plain⟩
      · exact ⟨0, value, rfl, begins⟩

end Flag

/-! ## Reading -/

/-- The arguments end where an option is expected, and not where its value is. -/
inductive AtOption (topic : Topic) : List String → Prop
  | start : AtOption topic []
  | separate {flag : Flag} {value : String} {rest : List String}
      (offered : flag.Offered topic) (others : AtOption topic rest) :
      AtOption topic (flag.text :: value :: rest)
  | single {argument : String} {rest : List String}
      (plain : ∀ flag : Flag, flag.Offered topic → argument ≠ flag.text)
      (others : AtOption topic rest) : AtOption topic (argument :: rest)

namespace Options

theorem read_separate (offered : flag.Offered topic) (options : Options) (value : String)
    (rest : List String) :
    read topic options (flag.text :: value :: rest) =
      read topic (options.assign flag value) rest := by
  have named : ¬ (flag.text = "-h" ∨ flag.text = "--help") := by
    cases flag <;> decide
  rw [read, if_neg named, Flag.ofArgument?_text offered]

theorem read_attached (offered : flag.Offered topic) (plain : ¬ flag.opening <+: value.toList)
    (options : Options) (copies : Nat) (rest : List String) :
    read topic options (flag.behind value (copies + 1) :: rest) =
      read topic (options.assign flag value) rest := by
  have named : ¬ (flag.behind value (copies + 1) = "-h" ∨
      flag.behind value (copies + 1) = "--help") :=
    not_or.2 ⟨Flag.attached_ne (by decide), Flag.attached_ne (by decide)⟩
  have other : Flag.ofArgument? topic (flag.behind value (copies + 1)) = none :=
    Flag.ofArgument?_eq_none fun flag _ => Flag.attached_ne flag.equals_not_mem_text
  rw [read, if_neg named, other]
  simp only [Flag.ofAssignment?_attached offered plain]

/-- What is read alike is read alike after the same arguments. -/
theorem read_congr
    (ready : AtOption topic before) {first second : List String}
    (same : ∀ options, read topic options first = read topic options second)
    (options : Options) :
    read topic options (before ++ first) = read topic options (before ++ second) := by
  induction ready generalizing options with
  | start => exact same options
  | @separate flag value rest offered _ step =>
      show read topic options (flag.text :: value :: (rest ++ first)) =
        read topic options (flag.text :: value :: (rest ++ second))
      rw [read_separate offered, read_separate offered]
      exact step _
  | @single argument rest plain _ step =>
      rw [List.cons_append, List.cons_append, read, read, Flag.ofArgument?_eq_none plain]
      split
      · rfl
      · simp only
        split
        · exact step _
        · rfl

end Options

/-! ## Values that are read differently -/

/-- A list of names begins with something more if it stands behind a copy of the option. -/
theorem ink_namesInList_lt (value : String) (copies : Nat) :
    ink ((namesInList value).flatMap String.toList) <
      ink ((namesInList (Flag.exclude.behind value (copies + 1))).flatMap String.toList) := by
  have front : 0 < ink Flag.exclude.opening := by decide
  have step (text : String) :
      ink ((namesInList text).flatMap String.toList) <
        ink ((namesInList (Flag.exclude.attached text)).flatMap String.toList) := by
    rcases exists_splitAt_eq_cons ',' text.toList with ⟨piece, others, pieces⟩
    have free : ',' ∉ Flag.exclude.opening := by decide
    have more := splitAt_append_of_free free pieces
    rw [ink_namesInList, ink_namesInList, Flag.toList_attached, more, pieces]
    simp only [List.flatten_cons, ink_append]
    omega
  induction copies with
  | zero => exact step value
  | succ copies earlier => exact earlier.trans (step _)

/-- A file, and an operation with which all options of the topic can be given. -/
def usualOptions (topic : Topic) : Options where
  descriptor := some "d.json"
  operation := some (match topic with
    | .write => "upsert"
    | .schema => "create"
    | _ => "find")

/-- What the usual options ask for, with these files. -/
def usualCommand (topic : Topic) (sources : Sources) : Command :=
  match topic with
  | .root => .help .root
  | .read => .read sources .find
  | .write => .write sources .upsert []
  | .schema => .schema sources .create

theorem usualCommand_injective (proper : topic ≠ .root) :
    Function.Injective (usualCommand topic) := by
  intro first second same
  cases topic with
  | root => exact absurd rfl proper
  | read | write | schema =>
      cases same
      rfl

theorem ofOptions_sources (topic : Topic) (descriptor : String) (config : Option String) :
    Command.ofOptions topic
        { usualOptions topic with descriptor := some descriptor, config := config } =
      .ok (usualCommand topic ⟨descriptor, config⟩) := by
  cases topic <;> rfl

/-- The names of the operations of a topic. -/
def operationNames : Topic → List String
  | .root => []
  | .read => readOperations.map Prod.fst
  | .write => rowOperations.map Prod.fst
  | .schema => tableOperations.map Prod.fst

theorem chosenOperation_eq_error {α : Type} {usual : α} {named : List (String × α)}
    {name : String} {fault : ArgumentFault} :
    chosenOperation topic usual named (some name) = .error fault ↔
      name ∉ named.map Prod.fst ∧ fault = .unknownOperation topic name := by
  have unknown : named.lookup name = none ↔ name ∉ named.map Prod.fst := by
    simp only [List.lookup_eq_none_iff, bne_iff_ne, List.mem_map, not_exists, not_and]
    exact forall₂_congr fun entry _ => ne_comm
  rw [← unknown, chosenOperation]
  cases named.lookup name with
  | none => simp [eq_comm]
  | some operation => simp

/-- With the usual options, an operation that is not known is the only fault. -/
theorem ofOptions_operation (proper : topic ≠ .root) (name other : String) :
    Command.ofOptions topic { usualOptions topic with operation := some name } =
        .error (.unknownOperation topic other) ↔
      name ∉ operationNames topic ∧ other = name := by
  cases topic with
  | root => exact absurd rfl proper
  | read | write | schema =>
      simp [Command.ofOptions, usualOptions, operationNames, functor_map_eq_error,
        chosenOperation_eq_error]

/-- No operation has a name that begins with a dash. -/
theorem behind_not_mem_operationNames (topic : Topic) (value : String) (copies : Nat) :
    Flag.operation.behind value (copies + 1) ∉ operationNames topic := by
  have plain : ∀ name ∈ operationNames topic, name.toList.head? ≠ some '-' := by
    cases topic <;> decide
  intro member
  exact plain _ member (by rw [Flag.behind, Flag.toList_attached]; rfl)

theorem ofOptions_excluded (excluded : List String) :
    Command.ofOptions .write { usualOptions .write with excluded := excluded } =
      .ok (.write ⟨"d.json", none⟩ .upsert excluded) := by
  have chosen : chosenOperation .write .create rowOperations (some "upsert") = .ok .upsert := rfl
  simp [Command.ofOptions, usualOptions, chosen, pure, Except.pure, bind, Except.bind]

/-- Copies of an option in front of its value make another command of the usual options. -/
theorem ofOptions_assign_ne
    (proper : topic ≠ .root) (offered : flag.Offered topic) (value : String) (copies : Nat) :
    Command.ofOptions topic
        ((usualOptions topic).assign flag (flag.behind value (copies + 1))) ≠
      Command.ofOptions topic ((usualOptions topic).assign flag value) := by
  have different := flag.behind_succ_ne value copies
  intro same
  cases flag with
  | descriptor =>
      have files := (ofOptions_sources topic _ none).symm.trans
        (same.trans (ofOptions_sources topic value none))
      have named := usualCommand_injective proper (Except.ok.inj files)
      exact different (congrArg Sources.descriptor named)
  | config =>
      have files := (ofOptions_sources topic "d.json" (some _)).symm.trans
        (same.trans (ofOptions_sources topic "d.json" (some value)))
      have named := usualCommand_injective proper (Except.ok.inj files)
      exact different (Option.some.inj (congrArg Sources.config named))
  | operation =>
      have refused := (ofOptions_operation proper _ _).2
        ⟨behind_not_mem_operationNames topic value copies, rfl⟩
      exact different ((ofOptions_operation proper value _).1 (same.symm.trans refused)).2
  | exclude =>
      obtain rfl : topic = .write := offered rfl
      have commands := (ofOptions_excluded _).symm.trans (same.trans (ofOptions_excluded _))
      have lists : namesInList (Flag.exclude.behind value (copies + 1)) = namesInList value :=
        (Command.write.inj (Except.ok.inj commands)).2.2
      have longer := ink_namesInList_lt value copies
      rw [lists] at longer
      exact Nat.lt_irrefl _ longer

/-! ## Command lines -/

theorem ofArguments_topic (proper : topic ≠ .root) (arguments : List String) :
    Command.ofArguments (topic.name :: arguments) = Command.ofTopic topic arguments := by
  cases topic with
  | root => exact absurd rfl proper
  | read | write | schema => rfl

/-- An option with its value in one argument is read like the value alone, copies left out. -/
theorem ofArguments_attached
    (proper : topic ≠ .root) (offered : flag.Offered topic) (ready : AtOption topic before)
    (plain : ¬ flag.opening <+: value.toList) (copies : Nat) (after : List String) :
    Command.ofArguments (topic.name :: (before ++ flag.behind value (copies + 1) :: after)) =
      Command.ofArguments (topic.name :: (before ++ flag.text :: value :: after)) := by
  have same (options : Options) :
      Options.read topic options (flag.behind value (copies + 1) :: after) =
        Options.read topic options (flag.text :: value :: after) := by
    rw [Options.read_attached offered plain, Options.read_separate offered]
  rw [ofArguments_topic proper, ofArguments_topic proper, Command.ofTopic, Command.ofTopic,
    Options.read_congr ready same]

/-- The arguments that give the usual options. -/
def usualArguments (topic : Topic) : List String :=
  [Flag.descriptor.text, "d.json", Flag.operation.text, (usualOptions topic).operation.getD ""]

theorem atOption_usual (topic : Topic) : AtOption topic (usualArguments topic) :=
  .separate nofun (.separate nofun .start)

theorem ofArguments_usual
    (proper : topic ≠ .root) (offered : flag.Offered topic) (value : String) :
    Command.ofArguments (topic.name :: (usualArguments topic ++ [flag.text, value])) =
      Command.ofOptions topic ((usualOptions topic).assign flag value) := by
  have descriptor : Flag.descriptor.Offered topic := nofun
  have operation : Flag.operation.Offered topic := nofun
  have usual : Options.read topic {} (usualArguments topic ++ [flag.text, value]) =
      Options.read topic (usualOptions topic) [flag.text, value] := by
    show Options.read topic {}
        (Flag.descriptor.text :: "d.json" :: Flag.operation.text :: _ :: [flag.text, value]) = _
    rw [Options.read_separate descriptor, Options.read_separate operation]
    rfl
  rw [ofArguments_topic proper, Command.ofTopic, usual, Options.read_separate offered]
  rfl

/--
After arguments that end where an option is expected, an option and its value
mean the same in one argument as in two, but for the copies of the option and
the equals sign that the value has in front: in one argument they are left out,
and in two they belong to the value.  So the two spellings agree exactly for the
values that have no such copy in front.
-/
theorem option_spellings_agree_iff
    (proper : topic ≠ .root) (offered : flag.Offered topic) :
    (∀ before value copies after, AtOption topic before → ¬ flag.opening <+: value.toList →
      Command.ofArguments (topic.name :: (before ++ flag.behind value (copies + 1) :: after)) =
        Command.ofArguments (topic.name :: (before ++ flag.text :: value :: after))) ∧
      ∀ value,
        (∀ before after, AtOption topic before →
          Command.ofArguments (topic.name :: (before ++ flag.attached value :: after)) =
            Command.ofArguments (topic.name :: (before ++ flag.text :: value :: after))) ↔
          ¬ flag.opening <+: value.toList := by
  refine ⟨fun before value copies after ready plain =>
    ofArguments_attached proper offered ready plain copies after, fun value => ⟨?_, ?_⟩⟩
  · intro agree begins
    rcases flag.exists_behind value with ⟨copies, rest, rfl, plain⟩
    cases copies with
    | zero => exact plain begins
    | succ copies =>
        have single := ofArguments_attached proper offered (atOption_usual topic) plain
          (copies + 1) []
        have separate := agree (usualArguments topic) [] (atOption_usual topic)
        have commands := (single.symm.trans separate).symm
        rw [ofArguments_usual proper offered, ofArguments_usual proper offered] at commands
        exact ofOptions_assign_ne proper offered rest copies commands
  · intro plain before after ready
    exact ofArguments_attached proper offered ready plain 0 after

theorem option_spellings_agree_iff_keptColumns :
    Command.ofArguments
        ["write", "--config", "--op", "--exclude", "owner, id", "--op=upsert", "--descriptor=w"] =
      .ok (.write ⟨"w", some "--op"⟩ .upsert ["owner", "id"]) ∧
    Command.ofArguments
        ["write", "--config", "--op", "--exclude=owner, id", "--op=upsert", "--descriptor=w"] =
      .ok (.write ⟨"w", some "--op"⟩ .upsert ["owner", "id"]) := by
  have ready : AtOption .write [Flag.config.text, "--op"] := .separate nofun .start
  have plain : ¬ Flag.exclude.opening <+: "owner, id".toList := by decide
  have separate : Command.ofArguments
        ["write", "--config", "--op", "--exclude", "owner, id", "--op=upsert", "--descriptor=w"] =
      .ok (.write ⟨"w", some "--op"⟩ .upsert ["owner", "id"]) := by
    rfl
  have offered : Flag.exclude.Offered .write := fun _ => rfl
  have agree := ((option_spellings_agree_iff (by decide) offered).2 "owner, id").2
    plain _ ["--op=upsert", "--descriptor=w"] ready
  exact ⟨separate, agree.trans separate⟩

/-- With a copy of the option in front of its value, only one of the spellings is refused. -/
theorem option_spellings_differ_copiedFind :
    Command.ofArguments ["read", "--descriptor", "d.json", "--op", "--op=find"] =
        .error (.unknownOperation .read "--op=find") ∧
      Command.ofArguments ["read", "--descriptor", "d.json", "--op=--op=find"] =
        .ok (.read ⟨"d.json", none⟩ .find) :=
  ⟨rfl, rfl⟩

end CommandLine

end SqlScribe
