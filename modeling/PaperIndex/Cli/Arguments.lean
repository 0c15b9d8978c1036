import PaperIndex.Cli.Command
import PaperIndex.Word

/-! # Arguments

Arguments name a command, perhaps through a group of commands, and give it values: words in their
order and options by name. An option takes the next argument, which may not look like an option, or
what follows its equals sign. After two dashes there are only words. The path of the configuration
may be given at every level; the innermost one counts. -/

namespace PaperIndex.Cli

/-- Why arguments do not ask for a command. -/
inductive ArgumentStop
  /-- The arguments are not acceptable. -/
  | usage
  /-- They ask for help. -/
  | help
  /-- They ask for the version. -/
  | version
deriving DecidableEq, Repr

/-- What a value has to be. -/
inductive Kind
  | text
  /-- A text that is not empty. -/
  | path
  /-- A natural number of 64 bits. -/
  | count
  /-- A natural number of 32 bits. -/
  | small
deriving DecidableEq, Repr

/-- The number that decimal digits denote, if there are any and nothing else. -/
def readDigits? (cs : List Char) : Option Nat :=
  if cs.isEmpty || !cs.all Char.isDigit then none
  else some (cs.foldl (fun n c => n * 10 + (c.toNat - 48)) 0)

/-- A natural number of 64 bits, which may have a plus. -/
def readCount? (s : String) : Option Nat :=
  let n := match s.toList with
    | '+' :: cs => readDigits? cs
    | cs => readDigits? cs
  n.filter (· < Word.count 64)

/-- A natural number of 32 bits, which may have a sign. -/
def readSmall? (s : String) : Option Nat :=
  match s.toList with
  | '-' :: cs => (readDigits? cs).filter (· = 0)
  | '+' :: cs => (readDigits? cs).filter (· < Word.count 32)
  | cs => (readDigits? cs).filter (· < Word.count 32)

/-- Whether a text is a value of a kind. -/
def Kind.accepts : Kind → String → Bool
  | .text, _ => true
  | .path, s => !s.isEmpty
  | .count, s => (readCount? s).isSome
  | .small, s => (readSmall? s).isSome

/-! ### Tokens -/

/-- What an argument looks like. -/
inductive Token
  /-- Two dashes alone. -/
  | dashes
  /-- An option by its name, perhaps with a value after an equals sign. -/
  | long (name : String) (value : Option String)
  /-- An option by a letter. -/
  | short (letter : Char)
  | word

/-- What an argument looks like. A dash alone is a word. -/
def tokenOf (s : String) : Token :=
  match s.toList with
  | ['-', '-'] => .dashes
  | '-' :: '-' :: cs =>
    let name := String.ofList (cs.takeWhile (· != '='))
    match cs.dropWhile (· != '=') with
    | _ :: value => .long name (some (String.ofList value))
    | [] => .long name none
  | '-' :: c :: _ => .short c
  | _ => .word

/-! ### The arguments of one command -/

/-- The values that a command takes. -/
structure Grammar where
  /-- The words, all of which have to be given. -/
  words : List Kind
  /-- The options; those of no kind are switches. -/
  options : List (String × Option Kind)

/-- The option for the path of the configuration. -/
def configOption : String := "config"

/-- The kind of an option, if there is one of the name. -/
def Grammar.kindOf? (g : Grammar) (name : String) : Option (Option Kind) :=
  if name = configOption then some (some .path) else g.options.lookup name

/-- The values that have been given. -/
structure Given where
  words : List String
  options : List (String × String)

/-- Nothing has been given. -/
def Given.empty : Given := ⟨[], []⟩

namespace Given

/-- The word at a place. -/
def word (g : Given) (i : Nat) : String := (g.words[i]?).getD ""

/-- The value of an option. -/
def option? (g : Given) (name : String) : Option String := g.options.lookup name

/-- Whether a switch has been given. -/
def hasSwitch (g : Given) (name : String) : Bool := (g.option? name).isSome

/-- The number of an option. -/
def count? (g : Given) (name : String) : Option Nat := (g.option? name).bind readCount?

/-- The small number of an option. -/
def small? (g : Given) (name : String) : Option Nat := (g.option? name).bind readSmall?

/-- Takes up a word. -/
def addWord (grammar : Grammar) (g : Given) (s : String) : Except ArgumentStop Given :=
  match grammar.words[g.words.length]? with
  | some kind =>
    if kind.accepts s then .ok { g with words := g.words ++ [s] } else .error .usage
  | none => .error .usage

/-- Takes up the value of an option, which may be given once. -/
def addOption (g : Given) (name : String) (kind : Kind) (s : String) :
    Except ArgumentStop Given :=
  if (g.option? name).isSome || !kind.accepts s then .error .usage
  else .ok { g with options := (name, s) :: g.options }

/-- Takes up words only. -/
def addWords (grammar : Grammar) (g : Given) : List String → Except ArgumentStop Given
  | [] => .ok g
  | s :: ss => do
    let g ← g.addWord grammar s
    g.addWords grammar ss

end Given

/-- Reads the arguments of a command; `waiting` is an option that waits for its value. -/
def readGiven (grammar : Grammar) (g : Given) (waiting : Option (String × Kind)) :
    List String → Except ArgumentStop Given
  | [] =>
    if waiting.isNone && g.words.length = grammar.words.length then .ok g else .error .usage
  | s :: ss =>
    match waiting, tokenOf s with
    | some (name, kind), .word => do
      let g ← g.addOption name kind s
      readGiven grammar g none ss
    | some _, _ => .error .usage
    | none, .word => do
      let g ← g.addWord grammar s
      readGiven grammar g none ss
    | none, .dashes => do
      let g ← g.addWords grammar ss
      if g.words.length = grammar.words.length then .ok g else .error .usage
    | none, .short c => .error (if c = 'h' then .help else .usage)
    | none, .long name value =>
      match grammar.kindOf? name, value with
      | some (some kind), some v => do
        let g ← g.addOption name kind v
        readGiven grammar g none ss
      | some (some kind), none => readGiven grammar g (some (name, kind)) ss
      | some none, none => do
        let g ← g.addOption name .text ""
        readGiven grammar g none ss
      | some none, some _ => .error .usage
      | none, _ => .error (if name = "help" ∧ value = none then .help else .usage)

/-! ### The commands -/

/-- A command with its arguments. -/
structure Leaf where
  grammar : Grammar
  build : Given → Command

/-- A command on a URI alone. -/
def onUri (task : String → Task) : Leaf := ⟨⟨[.text], []⟩, fun g => .task (task (g.word 0))⟩

/-- A command without values. -/
def plain (c : Command) : Leaf := ⟨⟨[], []⟩, fun _ => c⟩

/-- A command on a URI and an actor. -/
def onActor (event : String → Option String → Metrics.Event) : Leaf :=
  ⟨⟨[.text], [("actor", some .text)]⟩,
    fun g => .task (.record (event (g.word 0) (g.option? "actor")))⟩

/-- A command on a page of a listing. -/
def onPage (task : String → Citations.PageRequest → Task) : Leaf :=
  ⟨⟨[.text], [("limit", some .small), ("offset", some .small)]⟩,
    fun g => .task (task (g.word 0) ⟨g.small? "limit", g.small? "offset"⟩)⟩

/-- The commands outside the groups. -/
def topLeaves : List (String × Leaf) :=
  [("init", plain .create),
   ("index", ⟨⟨[.text], [("pds", some .text)]⟩,
     fun g => .task (.index (g.word 0) (g.option? "pds"))⟩),
   ("delete", onUri .delete),
   ("check", onUri .check),
   ("refresh", ⟨⟨[.text], [("retry", none)]⟩,
     fun g => .task (.refresh (g.word 0) (g.hasSwitch "retry"))⟩),
   ("sweep", ⟨⟨[], [("max-age-secs", some .count), ("limit", some .count)]⟩,
     fun g => .task (.sweep (g.count? "max-age-secs") (g.count? "limit"))⟩),
   ("stats", plain .stats)]

/-- The commands on the registry of servers. -/
def serverLeaves : List (String × Leaf) :=
  [("add", onUri .addServer), ("list", plain (.task .listServers))]

/-- The commands on engagement. -/
def metricsLeaves : List (String × Leaf) :=
  [("view", onActor .view),
   ("download", onActor .download),
   ("dwell", ⟨⟨[.text, .count], []⟩,
     fun g => .task (.record (.dwell (g.word 0) ((readCount? (g.word 1)).getD 0)))⟩),
   ("search-click", onUri fun uri => .record (.searchClick uri)),
   ("search-download", onUri fun uri => .record (.searchDownload uri)),
   ("batch", ⟨⟨[.path], []⟩, fun g => .recordFile (g.word 0)⟩),
   ("show", onUri .summary),
   ("trending", ⟨⟨[], [("window", some .text), ("limit", some .count)]⟩,
     fun g => .trendingOf ((g.option? "window").getD "24h") ((g.count? "limit").getD 10)⟩),
   ("flush", plain (.task .flush))]

/-- The commands on the citation graph. -/
def citationLeaves : List (String × Leaf) :=
  [("register", onUri .register),
   ("import", ⟨⟨[.path], []⟩, fun g => .submitFile (g.word 0)⟩),
   ("citing", onPage .citing),
   ("references", onPage .references),
   ("cocited", ⟨⟨[.text], [("min", some .count)]⟩,
     fun g => .task (.coCited (g.word 0) ((g.count? "min").getD 1))⟩),
   ("delete", onUri .deleteCitations)]

/-- The groups of commands. -/
def groups : List (String × List (String × Leaf)) :=
  [("pds", serverLeaves), ("metrics", metricsLeaves), ("citations", citationLeaves)]

/-! ### The levels above the commands -/

/-- The name that is chosen at a level, the path of the configuration if it is given there, and the
arguments that follow. -/
structure Choice where
  name : String
  config : Option String
  rest : List String

/-- Reads the arguments of a level up to a name; `waiting` tells whether the path of the
configuration comes next. -/
def readChoice (isTop : Bool) (config : Option String) (waiting : Bool) :
    List String → Except ArgumentStop Choice
  | [] => .error .usage
  | s :: ss =>
    match waiting, tokenOf s with
    | true, .word =>
      if s.isEmpty || config.isSome then .error .usage else readChoice isTop (some s) false ss
    | true, _ => .error .usage
    | false, .word => .ok ⟨s, config, ss⟩
    | false, .dashes => .error .usage
    | false, .short c =>
      .error (if c = 'h' then .help else if isTop && c = 'V' then .version else .usage)
    | false, .long name value =>
      match value with
      | none =>
        if name = configOption then readChoice isTop config true ss
        else .error (if name = "help" then .help
          else if isTop && name = "version" then .version else .usage)
      | some v =>
        if name = configOption && !v.isEmpty && config.isNone then
          readChoice isTop (some v) false ss
        else .error .usage

/-- The path of the configuration unless it is given. -/
def usualConfigPath : String := "./config/epx.toml"

/-- The stop of a call for help about the given names. -/
def helpStop (known : List String → Bool) (names : List String) : ArgumentStop :=
  if known names then .help else .usage

/-- Whether names lead to a level or a command. -/
def isKnown : List String → Bool
  | [] => true
  | [name] => name = "help" || (topLeaves.lookup name).isSome || (groups.lookup name).isSome
  | [group, name] => ((groups.lookup group).getD []).any fun l => l.1 = name
  | _ => false

/-- The command of a leaf with its arguments. -/
def readLeaf (leaf : Leaf) (config : Option String) (args : List String) :
    Except ArgumentStop Invocation := do
  let g ← readGiven leaf.grammar .empty none args
  let path := (g.option? configOption).or config
  return ⟨path.getD usualConfigPath, leaf.build g⟩

/-- The command that arguments ask for. -/
def readArguments (args : List String) : Except ArgumentStop Invocation := do
  let top ← readChoice true none false args
  match topLeaves.lookup top.name, groups.lookup top.name with
  | some leaf, _ => readLeaf leaf top.config top.rest
  | none, some leaves => do
    let choice ← readChoice false none false top.rest
    match leaves.lookup choice.name with
    | some leaf => readLeaf leaf (choice.config.or top.config) choice.rest
    | none =>
      if choice.name = "help" then
        .error (helpStop (fun names => isKnown (top.name :: names)) choice.rest)
      else .error .usage
  | none, none =>
    if top.name = "help" then .error (helpStop isKnown top.rest) else .error .usage

end PaperIndex.Cli
