import ImagePull.Config.Decode
import ImagePull.Digest
import ImagePull.ImageRef

/-!
# The command line

The program is called with one of three commands. Options are written with two
dashes and their value behind a blank or an equals sign; a lone dash is an operand,
and so is everything behind two lone dashes. An option is given at most once, except
that a command may repeat one that stands before it. Words are read from left to
right, and the first that is wrong or asks for something else settles the matter.
-/

namespace ImagePull.Command

/-- What to do with a recorded stream. -/
structure ReplayArguments where
  file : String
  manifest : Option String := none
  digest : Option Digest := none
  flavor : Option Flavor := none
  reference : ImageRef

/-- What to pull, and how. -/
structure PullArguments where
  image : ImageRef
  manifest : Option String := none
  platform : Option Platform := none
  timeout : Option Duration := none

/-- The commands. -/
inductive Action where
  | init (force : Bool)
  | replay (arguments : ReplayArguments)
  | pull (arguments : PullArguments)

/-- A command with what holds for every command. -/
structure Invocation where
  verbose : Bool := false
  output : Option OutputMode := none
  action : Action

/-- Why there is no command to run: the words are wrong, or they ask for the version
or for help. -/
inductive Refusal where
  | usage
  | version
  | help
deriving DecidableEq, Repr

/-! ## Words -/

/-- The words that may stand in one part of the command line. A value or an operand
that does not pass its test is wrong. -/
structure Grammar where
  flags : List String
  options : List (String × (String → Bool))
  /-- Single letters, with the flags that they are short for. -/
  letters : List (Char × String)
  /-- The test of operands, of which there is at most one; without a test the first
  operand ends this part. -/
  operand : Option (String → Bool)

/-- The words read so far. -/
structure Words where
  flags : List String := []
  options : List (String × String) := []
  operand : Option String := none
  /-- What follows this part. -/
  rest : List String := []

namespace Words

/-- Adds a flag. -/
def addFlag (w : Words) (name : String) : Except Refusal Words :=
  if name = "help" then .error .help
  else if name = "version" then .error .version
  else if w.flags.contains name then .error .usage
  else .ok { w with flags := name :: w.flags }

/-- Adds an option with its value. -/
def addOption (w : Words) (name value : String) (test : String → Bool) :
    Except Refusal Words :=
  if !test value then .error .usage
  else if w.options.any (·.1 = name) then .error .usage
  else .ok { w with options := (name, value) :: w.options }

/-- Adds an operand. -/
def addOperand (w : Words) (value : String) (test : String → Bool) : Except Refusal Words :=
  if w.operand.isSome || !test value then .error .usage
  else .ok { w with operand := some value }

/-- Adds the flags that a word of letters stands for. -/
def addLetters (g : Grammar) (w : Words) : List Char → Except Refusal Words
  | [] => .ok w
  | c :: rest => match g.letters.lookup c with
    | none => .error .usage
    | some name => do addLetters g (← w.addFlag name) rest

/-- Whether a word is an option or begins like one. -/
def isDashed (word : String) : Bool :=
  word.toList.head? = some '-' && word != "-"

/-- The name and the value of an option with an equals sign. -/
def named (word : List Char) : String × Option String :=
  match Text.cutFirst? '=' word with
  | some (name, value) => (String.ofList name, some (String.ofList value))
  | none => (String.ofList word, none)

/-- Reads the words of one part. `literal` says that all words are operands, and
`awaiting` names the option whose value comes next, with its test. -/
def read (g : Grammar) (literal : Bool) (awaiting : Option (String × (String → Bool)))
    (w : Words) : List String → Except Refusal Words
  | [] => if awaiting.isSome then .error .usage else .ok w
  | word :: more =>
    match awaiting with
    | some (name, test) =>
      if isDashed word then .error .usage
      else match w.addOption name word test with
        | .error e => .error e
        | .ok w => read g literal none w more
    | none =>
      if literal || !isDashed word then
        match g.operand with
        | none => if literal then .error .usage else .ok { w with rest := word :: more }
        | some test => match w.addOperand word test with
          | .error e => .error e
          | .ok w => read g literal none w more
      else if word = "--" then read g true none w more
      else match ofDashed g w word with
        | .error e => .error e
        | .ok (w, awaiting) => read g literal awaiting w more
where
  /-- Adds what a word with dashes stands for; it may still await its value. -/
  ofDashed (g : Grammar) (w : Words) (word : String) :
      Except Refusal (Words × Option (String × (String → Bool))) :=
    match Text.after? word "--" with
    | none => (addLetters g w (word.toList.drop 1)).map (·, none)
    | some long =>
      let (name, value) := named long.toList
      if g.flags.contains name then
        if value.isSome then .error .usage else (w.addFlag name).map (·, none)
      else match g.options.lookup name, value with
        | none, _ => .error .usage
        | some test, some value => (w.addOption name value test).map (·, none)
        | some test, none => .ok (w, some (name, test))

end Words

/-! ## Commands -/

/-- A value that is not empty. -/
def isPath (s : String) : Bool :=
  s != ""

/-- The test of a value that has to be read by `read`. -/
def passes {ε α : Type} (read : String → Except ε α) (s : String) : Bool :=
  (read s).toOption.isSome

/-- The flags of every part, and the letters for them. -/
def commonFlags : List String := ["verbose", "help"]

@[inherit_doc commonFlags]
def commonLetters : List (Char × String) := [('v', "verbose"), ('h', "help")]

/-- The option of every part. -/
def commonOptions : List (String × (String → Bool)) :=
  [("output", fun s => (OutputMode.ofName? s).isSome)]

/-- The words before the command. -/
def topGrammar : Grammar where
  flags := "version" :: commonFlags
  options := commonOptions
  letters := ('V', "version") :: commonLetters
  operand := none

/-- The words of the command that creates a configuration. -/
def initGrammar : Grammar where
  flags := "force" :: commonFlags
  options := commonOptions
  letters := commonLetters
  operand := some fun _ => false

/-- The words of the command that replays a recording. -/
def replayGrammar : Grammar where
  flags := commonFlags
  options := commonOptions ++
    [("manifest", isPath), ("digest", passes Digest.parse), ("flavor", passes Flavor.parse),
     ("reference", passes ImageRef.parse)]
  letters := commonLetters
  operand := some isPath

/-- The words of the command that pulls an image. -/
def pullGrammar : Grammar where
  flags := commonFlags
  options := commonOptions ++
    [("manifest", isPath), ("platform", passes Platform.parse),
     ("timeout", passes Duration.parse)]
  letters := commonLetters
  operand := some (passes ImageRef.parse)

/-- The value of an option, read. -/
def Words.value? {ε α : Type} (w : Words) (name : String) (read : String → Except ε α) :
    Option α :=
  (w.options.lookup name).bind fun s => (read s).toOption

/-- The image of a recording that is not told. -/
def recordedImage : String := "image:latest"

/-- The command of its words. -/
def Action.ofWords (name : String) (w : Words) : Except Refusal Action :=
  let missing : Except Refusal Action := .error .usage
  match name, w.operand with
  | "init", _ => .ok (.init (w.flags.contains "force"))
  | "replay", some file =>
    match ImageRef.parse ((w.options.lookup "reference").getD recordedImage) with
    | .error _ => missing
    | .ok reference => .ok (.replay
        { file, reference
          manifest := w.options.lookup "manifest"
          digest := w.value? "digest" Digest.parse
          flavor := w.value? "flavor" Flavor.parse })
  | "pull", some image =>
    match ImageRef.parse image with
    | .error _ => missing
    | .ok image => .ok (.pull
        { image
          manifest := w.options.lookup "manifest"
          platform := w.value? "platform" Platform.parse
          timeout := w.value? "timeout" Duration.parse })
  | _, _ => missing

/-- The grammars of the commands. -/
def grammars : List (String × Grammar) :=
  [("init", initGrammar), ("replay", replayGrammar), ("pull", pullGrammar)]

/-- What the words behind the word for help ask for: at most one of them may follow, and
it has to name a command or help itself. -/
def helpOn : List String → Refusal
  | [] => .help
  | [name] => if name = "help" ∨ (grammars.lookup name).isSome then .help else .usage
  | _ => .usage

/-- The command that the words ask for. What stands behind the command counts before
what stands in front of it. -/
def Invocation.ofWords (words : List String) : Except Refusal Invocation := do
  let top ← Words.read topGrammar false none {} words
  match top.rest with
  | [] => .error .usage
  | name :: more =>
    if name = "help" then .error (helpOn more)
    else match grammars.lookup name with
      | none => .error .usage
      | some g =>
        let w ← Words.read g false none {} more
        let action ← Action.ofWords name w
        let output := (w.options.lookup "output" <|> top.options.lookup "output").bind
          OutputMode.ofName?
        .ok
          { verbose := w.flags.contains "verbose" || top.flags.contains "verbose"
            output, action }

end ImagePull.Command
