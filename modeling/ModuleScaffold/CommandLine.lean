import ModuleScaffold.Text.Split

/-! # The command line

Options and commands, and what a sequence of arguments asks for. Values of options are looked at only when the
next option begins or the arguments end, so that an unknown option is noticed before a bad value. -/

namespace ModuleScaffold.CommandLine

/-- Why the arguments do not lead to a run. -/
inductive Refusal where
  | helpWanted
  | versionWanted
  | nothingGiven
  | missingCommand
  | missingArgument
  | unknownCommand
  | unknownArgument
  | repeatedOption
  | badValue
  | unwantedValue
  deriving DecidableEq, Repr

/-- What an argument can set. -/
inductive Key where
  | config | resource | provider | directory | binary | logLevel | descAsComment | schemaFile | shell
  | help | version
  deriving DecidableEq, Repr

namespace Key

/-- Whether a value belongs to the option. -/
def takesValue : Key → Bool
  | descAsComment | help | version => false
  | _ => true

/-- Whether the option may be given several times. -/
def repeats : Key → Bool
  | resource | provider => true
  | _ => false

/-- The shells that completions are written for. -/
def shells : List String := ["bash", "elvish", "fish", "powershell", "zsh"]

/-- Whether a value fits the option: paths are not empty, and shells are known. -/
def admits : Key → String → Bool
  | config, value | directory, value | schemaFile, value => value ≠ ""
  | shell, value => value ∈ shells
  | _, _ => true

end Key

/-- A command, or the level of the command line before one is named. -/
inductive Scope where
  | top | generate | completion
  deriving DecidableEq, Repr

namespace Scope

/-- The option of a long name. -/
def long? (scope : Scope) (name : List Char) : Option Key :=
  let word := String.ofList name
  if word = "config" then some .config
  else if word = "help" then some .help
  else
    match scope with
    | top => if word = "version" then some .version else none
    | generate =>
      if word = "resource" then some .resource
      else if word = "provider" then some .provider
      else if word = "directory" then some .directory
      else if word = "binary" then some .binary
      else if word = "log-level" then some .logLevel
      else if word = "desc-as-comment" then some .descAsComment
      else if word = "schema-file" then some .schemaFile
      else none
    | completion => none

/-- The option of a letter. -/
def short? (scope : Scope) (c : Char) : Option Key :=
  if c = 'h' then some .help
  else
    match scope with
    | top => if c = 'V' then some .version else none
    | generate =>
      if c = 'r' then some .resource
      else if c = 'p' then some .provider
      else if c = 'd' then some .directory
      else if c = 'b' then some .binary
      else if c = 'l' then some .logLevel
      else none
    | completion => none

/-- The command of a name. -/
def command? (name : String) : Option Scope :=
  if name = "generate" then some generate
  else if name = "completion" then some completion
  else none

end Scope

/-! ## Reading options -/

/-- How far the arguments of a scope are read. -/
structure Scan where
  scope : Scope
  /-- What has been set, oldest first. -/
  set : List (Key × String)
  /-- The option that has been named last, with its value if that has been read. -/
  pending : Option (Key × Option String)
  deriving DecidableEq, Repr

namespace Scan

/-- The start of a scope. -/
def start (scope : Scope) : Scan := ⟨scope, [], none⟩

/-- Whether something has been set. -/
def has (key : Key) (s : Scan) : Bool := s.set.any (·.1 == key)

/-- Sets an option to a value. -/
def put (key : Key) (value : String) (s : Scan) : Except Refusal Scan :=
  if s.has key && !key.repeats then .error .repeatedOption
  else if key.admits value then .ok { s with set := s.set ++ [(key, value)] }
  else .error .badValue

/-- Sets the option that has been named last. -/
def settle (s : Scan) : Except Refusal Scan :=
  match s.pending with
  | none => .ok s
  | some (_, none) => .error .badValue
  | some (key, some value) => { s with pending := none }.put key value

/-- Acts on a flag. -/
def flag (key : Key) (s : Scan) : Except Refusal Scan :=
  match s.settle with
  | .error r => .error r
  | .ok s =>
    match key with
    | .help => .error .helpWanted
    | .version => .error .versionWanted
    | other => s.put other "true"

/-- Acts on an option with a value of its own. -/
def attached (key : Key) (value : String) (s : Scan) : Except Refusal Scan :=
  match s.settle with
  | .error r => .error r
  | .ok s => s.put key value

/-- Names an option whose value follows. -/
def named (key : Key) (s : Scan) : Except Refusal Scan :=
  match s.settle with
  | .error r => .error r
  | .ok s => .ok { s with pending := some (key, none) }

/-- Reads what follows the two dashes of a long option. -/
def long (body : List Char) (s : Scan) : Except Refusal Scan :=
  let (name, value) := match Text.splitAt? '=' body with
    | some (name, value) => (name, some (String.ofList value))
    | none => (body, none)
  match s.scope.long? name with
  | none => .error .unknownArgument
  | some key =>
    match key.takesValue, value with
    | true, some value => s.attached key value
    | true, none => s.named key
    | false, some _ => .error .unwantedValue
    | false, none => s.flag key

/-- Reads the letters behind one dash. The rest of the letters is the value of the first option that takes
one; an equals sign before it does not count. -/
def short (s : Scan) : List Char → Except Refusal Scan
  | [] => .ok s
  | c :: rest =>
    match s.scope.short? c with
    | none => .error .unknownArgument
    | some key =>
      if key.takesValue then
        match rest with
        | [] => s.named key
        | '=' :: value => s.attached key (String.ofList value)
        | value => s.attached key (String.ofList value)
      else
        match s.flag key with
        | .ok s => s.short rest
        | .error r => .error r

end Scan

/-- What one argument turns out to be. -/
inductive Word where
  /-- The two dashes behind which there are no options. -/
  | escape
  | long (body : List Char)
  | short (letters : List Char)
  | plain (text : String)
  deriving DecidableEq, Repr

/-- What an argument is by its dashes; a single dash is a plain word. -/
def Word.of (argument : String) : Word :=
  match argument.toList with
  | ['-', '-'] => escape
  | '-' :: '-' :: body => long body
  | '-' :: c :: rest => short (c :: rest)
  | _ => plain argument

/-! ## Commands -/

/-- What `generate` is asked for. -/
structure GenerateOptions where
  resources : List String
  providers : List String
  directory : Option String
  binary : Option String
  logLevel : Option String
  comments : Bool
  schemaFile : Option String
  deriving DecidableEq, Repr

/-- A command with its options. -/
inductive Command where
  | generate (options : GenerateOptions)
  | completion (shell : String)
  deriving DecidableEq, Repr

/-- What the arguments ask for. -/
structure Invocation where
  /-- The settings file that is named. -/
  config : Option String
  command : Command
  deriving DecidableEq, Repr

namespace Scan

/-- The value of an option. -/
def value? (key : Key) (s : Scan) : Option String := (s.set.find? (·.1 == key)).map (·.2)

/-- All values of an option. -/
def values (key : Key) (s : Scan) : List String := (s.set.filter (·.1 == key)).map (·.2)

/-- The command of a scope whose arguments are read. -/
def command (s : Scan) : Except Refusal Command :=
  match s.scope with
  | .top => .error .missingCommand
  | .generate =>
    if s.has .resource && s.has .provider then
      .ok (.generate
        { resources := s.values .resource
          providers := s.values .provider
          directory := s.value? .directory
          binary := s.value? .binary
          logLevel := s.value? .logLevel
          comments := s.has .descAsComment
          schemaFile := s.value? .schemaFile })
    else .error .missingArgument
  | .completion =>
    match s.value? .shell with
    | some shell => .ok (.completion shell)
    | none => .error .missingArgument

end Scan

/-- Reads a word that is no option within a command: the shell of `completion`, which stands once. -/
def readOperand (s : Scan) (text : String) : Except Refusal Scan :=
  let taken := s.has .shell || s.pending.any fun (key, _) => key == .shell
  if s.scope = .completion && !taken then
    match s.settle with
    | .ok s => .ok { s with pending := some (.shell, some text) }
    | .error r => .error r
  else .error .unknownArgument

/-- Reads the arguments of a command; `options` says whether options may still come. -/
def readCommand (s : Scan) (options : Bool) : List String → Except Refusal Scan
  | [] => s.settle
  | argument :: rest =>
    if options then
      match Word.of argument with
      | .escape => readCommand s false rest
      | .long body =>
        match s.long body with
        | .ok s => readCommand s true rest
        | .error r => .error r
      | .short letters =>
        match s.short letters with
        | .ok s => readCommand s true rest
        | .error r => .error r
      | .plain text =>
        match s.pending with
        | some (key, none) => readCommand { s with pending := some (key, some text) } true rest
        | _ =>
          match readOperand s text with
          | .ok s => readCommand s true rest
          | .error r => .error r
    else
      match readOperand s argument with
      | .ok s => readCommand s false rest
      | .error r => .error r

/-- The command of a scope with these arguments, and the settings file that they name. -/
def commandOf (scope : Scope) (arguments : List String) : Except Refusal (Command × Option String) :=
  match readCommand (Scan.start scope) true arguments with
  | .error r => .error r
  | .ok s =>
    match s.command with
    | .ok command => .ok (command, s.value? .config)
    | .error r => .error r

/-- Whether a word is the name of a command. -/
def isName (word : String) : Bool := word = "help" || (Scope.command? word).isSome

/-- What `help` does with the words that name the command it is asked about. No command has commands of its
own, so a second word names nothing. -/
def help : List String → Refusal
  | [] => .helpWanted
  | [name] => if isName name then .helpWanted else .unknownCommand
  | _ => .unknownCommand

/-- The invocation of a command, once the options before it are settled. A settings file named behind the
command wins. -/
def invocation (s : Scan) (command : Command × Option String) : Except Refusal Invocation :=
  match s.settle with
  | .ok s => .ok ⟨command.2.orElse fun _ => s.value? .config, command.1⟩
  | .error r => .error r

/-- The end of arguments that name no command. -/
def withoutCommand (s : Scan) : Except Refusal Invocation :=
  match s.settle with
  | .error r => .error r
  | .ok s => if s.set.isEmpty then .error .nothingGiven else .error .missingCommand

/-- Reads a plain word before any command: the command that it names. -/
def readName (s : Scan) (name : String) (rest : List String) : Except Refusal Invocation :=
  if name = "help" then .error (help rest)
  else
    match Scope.command? name with
    | none => .error .unknownCommand
    | some scope =>
      match commandOf scope rest with
      | .ok command => invocation s command
      | .error r => .error r

/-- Reads the arguments up to a command. -/
def readTop (s : Scan) (options : Bool) : List String → Except Refusal Invocation
  | [] => withoutCommand s
  | argument :: rest =>
    if options then
      match Word.of argument with
      | .escape => readTop s false rest
      | .long body =>
        match s.long body with
        | .ok s => readTop s true rest
        | .error r => .error r
      | .short letters =>
        match s.short letters with
        | .ok s => readTop s true rest
        | .error r => .error r
      | .plain text =>
        match s.pending with
        | some (key, none) => readTop { s with pending := some (key, some text) } true rest
        | _ => readName s text rest
    else if isName argument then .error .unknownArgument
    else .error .unknownCommand

/-- What a sequence of arguments asks for. -/
def parse (arguments : List String) : Except Refusal Invocation := readTop (Scan.start .top) true arguments

end ModuleScaffold.CommandLine
