import SentenceForge.CommandLine.Given

/-!
# Command line arguments

A program declares its options: each has a long name, perhaps a letter,
and what it takes – nothing, a text or an integer – with the effect it has
on the record of options. Arguments are read in two passes.

The first pass looks at each argument by itself and says whether it names
an option. A long name may be cut short as long as it stays unambiguous,
and may carry its value after an equals sign; so may a letter, with or
without the sign. An argument that could be a negative number, or that has
a space in it, is a value unless it names an option. After `--` all
arguments are values.

The second pass goes from left to right. An option that takes something
and does not carry it takes the next argument, which has to be a value.
Letters of options that take nothing may be joined with the letter that
follows, and an equals sign is skipped only after the first of them: from
then on it is part of a value. Values that no option took, and options
that were not declared, are complained about at the end, and only after
the options that are missing.
-/

namespace SentenceForge.CommandLine

/-! ## Options -/

/-- What an option takes, and its effect on a record of options. -/
inductive Effect (α : Type) where
  /-- The option takes nothing. -/
  | flag (set : α → α)
  /-- The option takes a text. -/
  | text (set : Given Text → α → α)
  /-- The option takes an integer. -/
  | integer (set : Given Int → α → α)
  /-- The option asks for the usage and ends the program. -/
  | help

/-- **An option** of a program. -/
structure OptionSpec (α : Type) where
  /-- The letter, if it has one. -/
  letter : Option Char
  /-- The long name, dashes included. -/
  long : Text
  /-- What the option does. -/
  effect : Effect α
  /-- Whether it has to be given. -/
  required : Bool := false

namespace OptionSpec

variable {α : Type}

/-- Whether the option takes a value. -/
def takesValue (o : OptionSpec α) : Bool :=
  match o.effect with
  | .text _ => true
  | .integer _ => true
  | .flag _ => false
  | .help => false

/-- The option as messages name it. -/
def label (o : OptionSpec α) : Text :=
  match o.letter with
  | some c => '-' :: c :: '/' :: o.long
  | none => o.long

end OptionSpec

/-- Why arguments are not accepted, or need not be looked at further. -/
inductive Halt where
  /-- The usage was asked for. -/
  | help
  /-- A cut short name stands for several. -/
  | ambiguous (argument : Text) (names : List Text)
  /-- An option was not followed by the value it takes. -/
  | missingValue (option : Text)
  /-- An option was given a value that is no integer. -/
  | notInteger (option value : Text)
  /-- An option that takes nothing was given something. -/
  | unwantedValue (option value : Text)
  /-- Options that have to be given were not. -/
  | missingOptions (names : List Text)
  /-- Arguments that belong to no option. -/
  | unrecognized (arguments : List Text)
  deriving DecidableEq, Repr

namespace Halt

/-- A complaint about an option. -/
def about (option complaint : Text) : Text :=
  "argument ".toList ++ option ++ ": ".toList ++ complaint

/-- The message of a halt. -/
def message : Halt → Text
  | .help => []
  | .ambiguous argument names =>
    "ambiguous option: ".toList ++ argument ++ " could match ".toList
      ++ Text.joinWith ", ".toList names
  | .missingValue option => about option "expected one argument".toList
  | .notInteger option value =>
    about option ("invalid int value: ".toList ++ Text.quoted value)
  | .unwantedValue option value =>
    about option ("ignored explicit argument ".toList ++ Text.quoted value)
  | .missingOptions names =>
    "the following arguments are required: ".toList
      ++ Text.joinWith ", ".toList names
  | .unrecognized arguments =>
    "unrecognized arguments: ".toList ++ Text.joinWith [' '] arguments

end Halt

/-! ## The first pass: what an argument is -/

/-- What an option carries in its own argument. -/
inductive Carried where
  /-- Nothing. -/
  | nothing
  /-- What follows its letter, and an equals sign after that if there is
  one. It may be other letters. -/
  | joined (value : Text)
  /-- What follows an equals sign, and is a value if anything. -/
  | equals (value : Text)

/-- **An argument**, by what it is. -/
inductive Argument (α : Type) where
  /-- A value, or what stands for one. -/
  | value (text : Text)
  /-- The mark after which there are only values. -/
  | separator
  /-- An option and what it carries. -/
  | option (spec : OptionSpec α) (carried : Carried)
  /-- Something in the form of an option that is none. -/
  | undeclared (text : Text)

section Pass

variable {α : Type}

/-- The option with a letter. -/
def findLetter (specs : List (OptionSpec α)) (c : Char) :
    Option (OptionSpec α) :=
  specs.find? fun o => o.letter == some c

/-- The option that a text names in full, by its letter or its long
name. -/
def findExact (specs : List (OptionSpec α)) (text : Text) :
    Option (OptionSpec α) :=
  match text with
  | ['-', c] => findLetter specs c
  | _ => specs.find? fun o => o.long == text

/-- A text cut at its first equals sign: what precedes it, and what
follows it if there is one. -/
def cutAtEquals (text : Text) : Text × Option Text :=
  match text.dropWhile (· != '=') with
  | [] => (text, none)
  | _ :: value => (text.takeWhile (· != '='), some value)

/-- What is carried after an equals sign, if there is one. -/
def carriedAfter : Option Text → Carried
  | some value => .equals value
  | none => .nothing

/-- What an option carries that is named in full before an equals sign.
After a letter there may be other letters, unless nothing follows. -/
def carriedBy (o : OptionSpec α) (name value : Text) : Carried :=
  if name = o.long || value.isEmpty then .equals value else .joined value

/-- Whether every character is a decimal digit of some script. -/
def allDigits (s : Text) : Bool := s.all fun c => (Text.digitValue? c).isSome

/-- Whether an argument looks like a negative number: a dash, and digits
with at most one point before the last of them. A line feed at the end
does not count. -/
def looksNegative : Text → Bool
  | '-' :: body =>
    let body := if body.getLast? == some '\n' then body.dropLast else body
    match Text.pieces '.' body with
    | [digits] => !digits.isEmpty && allDigits digits
    | [whole, fraction] =>
      allDigits whole && !fraction.isEmpty && allDigits fraction
    | _ => false
  | _ => false

/-- An argument that names no option in full or cut short. -/
def classifyUnnamed (argument : Text) : Argument α :=
  if looksNegative argument || argument.contains ' ' then .value argument
  else .undeclared argument

/-- What an argument is, `--` apart. -/
def classify (specs : List (OptionSpec α)) (argument : Text) :
    Except Halt (Argument α) :=
  match argument with
  | '-' :: c :: rest =>
    match findExact specs argument with
    | some o => .ok (.option o .nothing)
    | none =>
      let (name, value) := cutAtEquals argument
      match value, findExact specs name with
      | some v, some o => .ok (.option o (carriedBy o name v))
      | _, _ =>
        if c = '-' then
          match specs.filter fun o => name.isPrefixOf o.long with
          | [] => .ok (classifyUnnamed argument)
          | [o] => .ok (.option o (carriedAfter value))
          | os => .error (.ambiguous argument (os.map OptionSpec.long))
        else
          match findLetter specs c with
          | some o => .ok (.option o (.joined rest))
          | none => .ok (classifyUnnamed argument)
  | _ => .ok (.value argument)

/-- What the arguments are. -/
def classifyAll (specs : List (OptionSpec α)) :
    List Text → Except Halt (List (Argument α))
  | [] => .ok []
  | argument :: rest =>
    if argument = Given.mark then .ok (.separator :: rest.map .value)
    else
      match classify specs argument with
      | .error h => .error h
      | .ok a => (classifyAll specs rest).map (a :: ·)

/-! ## The second pass: what the options do -/

/-- An option together with what it was given. -/
structure Use (α : Type) where
  /-- The option. -/
  spec : OptionSpec α
  /-- The value, which is empty for an option that takes none. -/
  value : Text

/-- What one argument comes to. -/
structure Cluster (α : Type) where
  /-- The options used, in order. -/
  uses : List (Use α)
  /-- The option that takes the next argument, if one does. -/
  waiting : Option (OptionSpec α)

/-- The cluster with an option used before. -/
def Cluster.after (u : Use α) (c : Cluster α) : Cluster α :=
  ⟨u :: c.uses, c.waiting⟩

/-- An option by itself. -/
def clusterAlone (o : OptionSpec α) : Cluster α :=
  if o.takesValue then ⟨[], some o⟩ else ⟨[⟨o, []⟩], none⟩

/-- An option with what follows an equals sign. -/
def clusterEquals (o : OptionSpec α) (value : Text) :
    Except Halt (Cluster α) :=
  if o.takesValue then .ok ⟨[⟨o, value⟩], none⟩
  else .error (.unwantedValue o.label value)

/-- An option given by its letter with what is joined to it: its value if
it takes one, and otherwise the letter of another option with what follows
that. All that is joined is unwanted if it does not open with a letter. -/
def clusterJoined (specs : List (OptionSpec α)) (o : OptionSpec α) :
    Text → Except Halt (Cluster α)
  | [] => .ok (clusterAlone o)
  | c :: rest =>
    if o.takesValue then .ok ⟨[⟨o, c :: rest⟩], none⟩
    else
      match findLetter specs c with
      | none => .error (.unwantedValue o.label (c :: rest))
      | some o' => (clusterJoined specs o' rest).map (·.after ⟨o, []⟩)

/-- What an option comes to with what it carries. -/
def cluster (specs : List (OptionSpec α)) (o : OptionSpec α) :
    Carried → Except Halt (Cluster α)
  | .nothing => .ok (clusterAlone o)
  | .joined value => clusterJoined specs o value
  | .equals value => clusterEquals o value

/-- What the arguments read so far have come to. -/
structure Reading (α : Type) where
  /-- The record of options. -/
  options : α
  /-- The long names of the options used. -/
  used : List Text
  /-- The arguments that belong to no option. -/
  leftovers : List Text

namespace Reading

/-- A reading with an option used. -/
def use (r : Reading α) (u : Use α) : Except Halt (Reading α) :=
  let used := u.spec.long :: r.used
  match u.spec.effect with
  | .help => .error .help
  | .flag set => .ok ⟨set r.options, used, r.leftovers⟩
  | .text set =>
    .ok ⟨set (.ofText u.value) r.options, used, r.leftovers⟩
  | .integer set =>
    match Given.ofText u.value with
    | .void => .ok ⟨set .void r.options, used, r.leftovers⟩
    | .value text =>
      match Text.readInt? text with
      | some n => .ok ⟨set (.value n) r.options, used, r.leftovers⟩
      | none => .error (.notInteger u.spec.label text)

/-- A reading with options used in order. -/
def useAll (r : Reading α) : List (Use α) → Except Halt (Reading α)
  | [] => .ok r
  | u :: us =>
    match r.use u with
    | .error h => .error h
    | .ok r' => r'.useAll us

/-- A reading with an argument left over. -/
def leave (r : Reading α) (text : Text) : Reading α :=
  ⟨r.options, r.used, r.leftovers ++ [text]⟩

end Reading

/-- The reading of the arguments that follow. An option that waits is used
with the next argument, and it is an error if there is none or it is no
value; only then are the options before it in its argument used. -/
def scan (specs : List (OptionSpec α)) :
    Reading α → List (Argument α) → Except Halt (Reading α)
  | r, [] => .ok r
  | r, .value text :: rest => scan specs (r.leave text) rest
  | r, .separator :: rest => scan specs (r.leave Given.mark) rest
  | r, .undeclared text :: rest => scan specs (r.leave text) rest
  | r, .option o carried :: rest =>
    match cluster specs o carried with
    | .error h => .error h
    | .ok c =>
      match c.waiting with
      | none =>
        match r.useAll c.uses with
        | .error h => .error h
        | .ok r' => scan specs r' rest
      | some o' =>
        match rest with
        | .value text :: rest' =>
          match r.useAll (c.uses ++ [⟨o', text⟩]) with
          | .error h => .error h
          | .ok r' => scan specs r' rest'
        | _ => .error (.missingValue o'.label)

/-- **The options that arguments spell**, starting from the defaults. -/
def parse (specs : List (OptionSpec α)) (defaults : α)
    (arguments : List Text) : Except Halt α :=
  match classifyAll specs arguments with
  | .error h => .error h
  | .ok classified =>
    match scan specs ⟨defaults, [], []⟩ classified with
    | .error h => .error h
    | .ok r =>
      let missing :=
        specs.filter fun o => o.required && !r.used.contains o.long
      if !missing.isEmpty then
        .error (.missingOptions (missing.map OptionSpec.label))
      else if !r.leftovers.isEmpty then .error (.unrecognized r.leftovers)
      else .ok r.options

end Pass

end SentenceForge.CommandLine
