import LlmWikiServe.ManagedContext

/-!
# Arguments of serve processes

Process discovery reads the command line of a running server with a parser of its own, which
knows some of the options that take a value.  A value it does not expect is taken for the root.
-/

namespace LlmWikiServe

open ManagedContext (Numbers)

/-! ## The parser of process discovery -/

/-- Host, port and root of a server. -/
structure ServeSettings where
  host : Text := "127.0.0.1"
  port : Int := 8765
  root : Text := ""
  deriving DecidableEq

/-- `if not root: root = token` -/
def ServeSettings.takeRoot (settings : ServeSettings) (token : Text) : ServeSettings :=
  if settings.root = [] then { settings with root := token } else settings

/-- `host = value or host` -/
def ServeSettings.takeHost (settings : ServeSettings) (value : Text) : ServeSettings :=
  if value = [] then settings else { settings with host := value }

def serveOptionsWithValues : List Text :=
  ["--host", "--port", "--cors-origin", "--refresh-interval-seconds", "--producer-manifest",
    "--io-log", "--projection-store", "--redis-url", "--redis-failure-policy", "--cache-namespace",
    "--source-id", "--graph-default-limit", "--context-default-limit", "--mcp-server-name",
    "--mcp-title", "--mcp-instructions", "--mcp-tool-description-prefix",
    "--managed-context-state-dir", "--managed-context-namespace"]

section Parsing

variable [Numbers]

def parsePort (value : Text) : Option Int :=
  (Numbers.intOfText value).bind fun port =>
    if port ≤ 0 || port > 65535 then none else some port

/-- The settings after the last argument. -/
def ServeSettings.checked (settings : ServeSettings) : Option ServeSettings :=
  if settings.port ≤ 0 || settings.port > 65535 then none else some settings

/-- The arguments from one on, in positional mode after a `--`. -/
def parseServeFrom (positionalMode : Bool) (settings : ServeSettings) :
    List Text → Option ServeSettings
  | [] => settings.checked
  | token :: rest =>
      if positionalMode then parseServeFrom true (settings.takeRoot token) rest
      else if token = ("--" : Text) then parseServeFrom true settings rest
      else if Text.startsWith token "--" then
        let option := Text.beforeFirst '=' token
        let hasValue : Bool := '=' ∈ token
        let inlineValue := (token.dropWhile (· ≠ '=')).drop 1
        if option = ("--host" : Text) then
          if hasValue then parseServeFrom false (settings.takeHost inlineValue) rest
          else
            match rest with
            | [] => none
            | value :: rest => parseServeFrom false (settings.takeHost value) rest
        else if option = ("--port" : Text) then
          if hasValue then
            match parsePort inlineValue with
            | none => none
            | some port => parseServeFrom false { settings with port } rest
          else
            match rest with
            | [] => none
            | value :: rest =>
                match parsePort value with
                | none => none
                | some port => parseServeFrom false { settings with port } rest
        else if option ∈ serveOptionsWithValues && !hasValue then
          match rest with
          | [] => settings.checked
          | _ :: rest => parseServeFrom false settings rest
        else parseServeFrom false settings rest
      else if Text.startsWith token "-" && token ≠ ("-" : Text) then
        parseServeFrom false settings rest
      else parseServeFrom false (settings.takeRoot token) rest

def parseServeArgs (args : List Text) : Option ServeSettings := parseServeFrom false {} args

end Parsing

/-! ## The options of the command -/

def serveValueOptions : List Text :=
  ["--host", "--port", "--cors-origin", "--refresh-interval-seconds", "--producer-manifest",
    "--io-log", "--projection-store", "--graph-store", "--graph-store-path", "--redis-url",
    "--redis-failure-policy", "--graph-store-failure-policy", "--cache-namespace", "--source-id",
    "--graph-default-limit", "--context-default-limit", "--context-graph-limit",
    "--source-profile", "--analyzer-profile", "--vector-provider", "--vector-model",
    "--vector-cache-dir", "--vector-model-cache-dir", "--vector-model-download",
    "--query-action-judge", "--query-action-judge-timeout-ms", "--mcp-server-name", "--mcp-title",
    "--mcp-instructions", "--mcp-tool-description-prefix", "--mcp-tools", "--mcp-exclude-tools",
    "--mcp-allowed-hosts", "--mcp-allowed-origins", "--read-default-max-chars",
    "--managed-context-state-dir", "--managed-context-namespace", "--git-sync-cooldown-seconds",
    "--git-sync-wait-seconds", "--git-sync-remote", "--git-sync-branch"]

/-- The options the command declares without a value. -/
def serveFlags : List Text :=
  ["--allow-drafts", "--enable-a2a-compat", "--managed-context", "--no-managed-context",
    "--git-sync", "--no-git-sync"]

/-- An option as it is given: with its value in the next argument, after `=`, or without one. -/
inductive ServeOption where
  | separate (name value : Text)
  | inline (name value : Text)
  | flag (name : Text)
  deriving DecidableEq

namespace ServeOption

def arguments : ServeOption → List Text
  | separate name value => [name, value]
  | inline name value => [name ++ '=' :: value]
  | flag name => [name]

def given? : ServeOption → Option (Text × Text)
  | separate name value => some (name, value)
  | inline name value => some (name, value)
  | flag _ => none

def valuesOf (name : Text) (option : ServeOption) : List Text :=
  (option.given?.filter fun given => given.1 = name).toList.map Prod.snd

def Declared [Numbers] : ServeOption → Prop
  | separate name value => name ∈ serveValueOptions ∧ Text.startsWith value "-" = false ∧
      (name = ("--port" : Text) → (parsePort value).isSome = true)
  | inline name value => name ∈ serveValueOptions ∧ Text.startsWith value "-" = false ∧
      (name = ("--port" : Text) → (parsePort value).isSome = true)
  | flag name => name ∈ serveFlags

end ServeOption

structure ServeCommand [Numbers] where
  before : List ServeOption
  root : Text
  after : List ServeOption
  declared : ∀ option ∈ before ++ after, option.Declared
  root_plain : Text.startsWith root "-" = false

namespace ServeCommand

variable [Numbers] (command : ServeCommand)

def arguments : List Text :=
  command.before.flatMap ServeOption.arguments ++
    command.root :: command.after.flatMap ServeOption.arguments

def valuesOf (name : Text) : List Text :=
  (command.before ++ command.after).flatMap (ServeOption.valuesOf name)

/-- What the command itself runs with: the last host and port given, and the root. -/
def settings : ServeSettings where
  host := ((command.valuesOf "--host").getLast?).getD "127.0.0.1"
  port := ((command.valuesOf "--port").getLast?.bind parsePort).getD 8765
  root := command.root

end ServeCommand

/-! ## One option, and all of them -/

/-- The texts the parser of process discovery may take for the root. -/
def ServeOption.mistaken : ServeOption → List Text
  | separate name value => if name ∈ serveOptionsWithValues then [] else [value]
  | _ => []

/-- The name and the value of an argument are told apart at the first `=`. -/
theorem inline_parts {name : Text} (free : '=' ∉ name) (value : Text) :
    Text.beforeFirst '=' (name ++ '=' :: value) = name ∧
      ((name ++ '=' :: value).dropWhile (· ≠ '=')).drop 1 = value := by
  have kept : ∀ char ∈ name, decide (char ≠ '=') = true := by
    intro char member
    exact decide_eq_true (ne_of_mem_of_not_mem member free)
  constructor
  · rw [Text.beforeFirst, List.takeWhile_append_of_pos kept]
    simp
  · rw [List.dropWhile_append_of_pos kept]
    simp

theorem declared_name {name : Text} (declared : name ∈ serveValueOptions ∨ name ∈ serveFlags) :
    '=' ∉ name ∧ Text.startsWith name "--" = true ∧ name ≠ ("--" : Text) := by
  have names : ∀ name ∈ serveValueOptions ++ serveFlags,
      '=' ∉ name ∧ Text.startsWith name "--" = true ∧ name ≠ ("--" : Text) := by decide
  exact names name (List.mem_append.mpr declared)

theorem valuesOf_given {option : ServeOption} {given value : Text}
    (gives : option.given? = some (given, value)) (name : Text) :
    option.valuesOf name = if given = name then [value] else [] := by
  rw [ServeOption.valuesOf, gives]
  by_cases same : given = name <;> simp [Option.filter, same]

section Reading

variable [Numbers]

/-- What process discovery makes of an option. -/
def ServeSettings.read (settings : ServeSettings) (option : ServeOption) : ServeSettings where
  host := (option.valuesOf "--host").foldl (fun host value => if value = [] then host else value)
    settings.host
  port := (option.valuesOf "--port").foldl (fun port value => (parsePort value).getD port)
    settings.port
  root := option.mistaken.foldl (fun root token => if root = [] then token else root)
    settings.root

theorem parsePort_valid {value : Text} {port : Int} (parsed : parsePort value = some port) :
    0 < port ∧ port ≤ 65535 := by
  obtain ⟨number, -, ranged⟩ := Option.bind_eq_some_iff.mp parsed
  split at ranged
  next => cases ranged
  next inside =>
    obtain rfl := Option.some.inj ranged
    simpa using inside

/-! What is read of an option is told by its name. -/

omit [Numbers] in
theorem mistaken_listed {option : ServeOption} {name value : Text}
    (gives : option.given? = some (name, value)) (listed : name ∈ serveOptionsWithValues) :
    option.mistaken = [] := by
  cases option with
  | separate given text =>
      obtain ⟨rfl, -⟩ := Prod.mk.inj (Option.some.inj gives)
      exact if_pos listed
  | inline given text => rfl
  | flag given => rfl

theorem read_host {option : ServeOption} {value : Text} (settings : ServeSettings)
    (gives : option.given? = some (("--host" : Text), value)) :
    settings.read option = settings.takeHost value := by
  have root : option.mistaken = [] := mistaken_listed gives (by decide)
  have differs : ("--host" : Text) ≠ ("--port" : Text) := by decide
  rw [ServeSettings.read, valuesOf_given gives, valuesOf_given gives, root, if_pos rfl,
    if_neg differs, ServeSettings.takeHost]
  by_cases empty : value = [] <;> simp [empty]

theorem read_port {option : ServeOption} {value : Text} (settings : ServeSettings)
    (gives : option.given? = some (("--port" : Text), value)) {port : Int}
    (parsed : parsePort value = some port) : settings.read option = { settings with port } := by
  have root : option.mistaken = [] := mistaken_listed gives (by decide)
  have differs : ("--port" : Text) ≠ ("--host" : Text) := by decide
  rw [ServeSettings.read, valuesOf_given gives, valuesOf_given gives, root, if_neg differs,
    if_pos rfl]
  simp [parsed]

theorem read_other {option : ServeOption} (settings : ServeSettings)
    (host : option.valuesOf "--host" = []) (port : option.valuesOf "--port" = []) :
    settings.read option = option.mistaken.foldl ServeSettings.takeRoot settings := by
  rw [ServeSettings.read, host, port]
  cases option with
  | separate name value =>
      rw [ServeOption.mistaken]
      split
      · rfl
      · rw [List.foldl_cons, List.foldl_cons, ServeSettings.takeRoot]
        split <;> rfl
  | inline name value => rfl
  | flag name => rfl

theorem parseServeFrom_plain {token : Text} (plain : Text.startsWith token "-" = false)
    (settings : ServeSettings) (rest : List Text) :
    parseServeFrom false settings (token :: rest) =
      parseServeFrom false (settings.takeRoot token) rest := by
  have short : token ≠ ("--" : Text) := by
    rintro rfl
    exact absurd plain (by decide)
  have single : Text.startsWith token "--" = false := by
    cases token with
    | nil => rfl
    | cons char others =>
        have differs : ('-' == char) = false := by
          simpa [Text.startsWith, List.isPrefixOf] using plain
        simp [Text.startsWith, List.isPrefixOf, differs]
  rw [parseServeFrom.eq_def]
  simp only [Bool.false_eq_true, if_false, short, single, plain, Bool.false_and]

theorem parseServeFrom_option {option : ServeOption} (declared : option.Declared)
    (settings : ServeSettings) (rest : List Text) :
    parseServeFrom false settings (option.arguments ++ rest) =
      parseServeFrom false (settings.read option) rest := by
  cases option with
  | separate name value =>
      obtain ⟨known, plain, port⟩ := declared
      obtain ⟨free, dashes, long⟩ := declared_name (Or.inl known)
      have values : ∀ wanted, (ServeOption.separate name value).valuesOf wanted =
          if name = wanted then [value] else [] := valuesOf_given rfl
      have whole : Text.beforeFirst '=' name = name :=
        List.takeWhile_eq_self_iff.mpr fun char member =>
          decide_eq_true (ne_of_mem_of_not_mem member free)
      have tokens : (ServeOption.separate name value).arguments ++ rest = name :: value :: rest := rfl
      rw [tokens, parseServeFrom.eq_def]
      simp only [Bool.false_eq_true, if_false, long, dashes, if_true, whole, free, decide_false]
      by_cases host : name = ("--host" : Text)
      · subst host
        rw [if_pos rfl, read_host settings rfl]
      rw [if_neg host]
      by_cases isPort : name = ("--port" : Text)
      · subst isPort
        obtain ⟨number, parsed⟩ := Option.isSome_iff_exists.mp (port rfl)
        rw [if_pos rfl, read_port settings rfl parsed, parsed]
      rw [if_neg isPort, read_other settings ((values _).trans (if_neg host))
        ((values _).trans (if_neg isPort)), ServeOption.mistaken]
      by_cases listed : name ∈ serveOptionsWithValues
      · rw [if_pos listed]
        simp [listed]
      · rw [if_neg listed]
        simp only [listed, decide_false, Bool.false_and, Bool.false_eq_true, if_false]
        exact parseServeFrom_plain plain settings rest
  | inline name value =>
      obtain ⟨known, plain, port⟩ := declared
      obtain ⟨free, dashes, long⟩ := declared_name (Or.inl known)
      obtain ⟨before, after⟩ := inline_parts free value
      have values : ∀ wanted, (ServeOption.inline name value).valuesOf wanted =
          if name = wanted then [value] else [] := valuesOf_given rfl
      have tokens : (ServeOption.inline name value).arguments ++ rest =
          (name ++ '=' :: value) :: rest := rfl
      have starts : Text.startsWith (name ++ '=' :: value) "--" = true :=
        List.isPrefixOf_iff_prefix.mpr
          ((List.isPrefixOf_iff_prefix.mp dashes).trans (List.prefix_append _ _))
      have marked : '=' ∈ name ++ '=' :: value := by simp
      have unmarked : name ++ '=' :: value ≠ ("--" : Text) := by
        intro same
        rw [same] at marked
        exact absurd marked (by decide)
      rw [tokens, parseServeFrom.eq_def]
      simp only [Bool.false_eq_true, if_false, unmarked, starts, if_true, before, after, marked,
        decide_true]
      by_cases host : name = ("--host" : Text)
      · subst host
        rw [if_pos rfl, read_host settings rfl]
      rw [if_neg host]
      by_cases isPort : name = ("--port" : Text)
      · subst isPort
        obtain ⟨number, parsed⟩ := Option.isSome_iff_exists.mp (port rfl)
        rw [if_pos rfl, read_port settings rfl parsed, parsed]
      rw [if_neg isPort, read_other settings ((values _).trans (if_neg host))
        ((values _).trans (if_neg isPort))]
      simp [ServeOption.mistaken]
  | flag name =>
      obtain ⟨free, dashes, long⟩ := declared_name (Or.inr declared)
      have unlisted : ∀ name ∈ serveFlags, name ≠ ("--host" : Text) ∧ name ≠ ("--port" : Text) ∧
          name ∉ serveOptionsWithValues := by decide
      obtain ⟨host, port, listed⟩ := unlisted name declared
      have whole : Text.beforeFirst '=' name = name :=
        List.takeWhile_eq_self_iff.mpr fun char member =>
          decide_eq_true (ne_of_mem_of_not_mem member free)
      have tokens : (ServeOption.flag name).arguments ++ rest = name :: rest := rfl
      rw [tokens, parseServeFrom.eq_def, read_other settings rfl rfl]
      simp only [Bool.false_eq_true, if_false, long, dashes, if_true, whole, host, port, listed,
        decide_false, Bool.false_and]
      rfl

theorem parseServeFrom_options {options : List ServeOption}
    (declared : ∀ option ∈ options, option.Declared) (settings : ServeSettings)
    (rest : List Text) :
    parseServeFrom false settings (options.flatMap ServeOption.arguments ++ rest) =
      parseServeFrom false (options.foldl ServeSettings.read settings) rest := by
  induction options generalizing settings with
  | nil => rfl
  | cons option others inductionHypothesis =>
      rw [List.forall_mem_cons] at declared
      rw [List.flatMap_cons, List.append_assoc, parseServeFrom_option declared.1,
        inductionHypothesis declared.2, List.foldl_cons]

/-- Each setting is read from its own values. -/
theorem read_all (options : List ServeOption) (settings : ServeSettings) :
    options.foldl ServeSettings.read settings =
      { host := (options.flatMap (ServeOption.valuesOf "--host")).foldl
          (fun host value => if value = [] then host else value) settings.host
        port := (options.flatMap (ServeOption.valuesOf "--port")).foldl
          (fun port value => (parsePort value).getD port) settings.port
        root := (options.flatMap ServeOption.mistaken).foldl
          (fun root token => if root = [] then token else root) settings.root } := by
  induction options generalizing settings with
  | nil => rfl
  | cons option others inductionHypothesis =>
      rw [List.foldl_cons, inductionHypothesis]
      simp only [List.flatMap_cons, List.foldl_append]
      rfl

omit [Numbers] in
/-- The last value given, where an empty one is passed over. -/
theorem last_host {values : List Text} {default : Text} (nonempty : default ≠ []) :
    (values.foldl (fun host value => if value = [] then host else value) default =
      values.getLast?.getD default) ↔ values.getLast? ≠ some [] := by
  have kept : ∀ values : List Text,
      values.foldl (fun host value => if value = [] then host else value) default ≠ [] := by
    intro values
    induction values using List.reverseRecOn with
    | nil => exact nonempty
    | append_singleton others value inductionHypothesis =>
        rw [List.foldl_concat]
        split
        · exact inductionHypothesis
        · assumption
  induction values using List.reverseRecOn with
  | nil => simp
  | append_singleton others value =>
      rw [List.foldl_concat, List.getLast?_concat]
      by_cases empty : value = []
      · simp [empty, kept others]
      · simp [empty]

theorem last_port {values : List Text} (parsed : ∀ value ∈ values, (parsePort value).isSome = true)
    (default : Int) :
    values.foldl (fun port value => (parsePort value).getD port) default =
      (values.getLast?.bind parsePort).getD default := by
  induction values using List.reverseRecOn with
  | nil => rfl
  | append_singleton others value =>
      obtain ⟨port, parsed⟩ := Option.isSome_iff_exists.mp (parsed value (by simp))
      rw [List.foldl_concat, List.getLast?_concat]
      simp [parsed]

omit [Numbers] in
theorem first_root (tokens : List Text) :
    tokens.foldl (fun root token => if root = [] then token else root) [] =
      (tokens.find? (· ≠ [])).getD [] := by
  have kept : ∀ (tokens : List Text) {root : Text}, root ≠ [] →
      tokens.foldl (fun root token => if root = [] then token else root) root = root := by
    intro tokens root nonempty
    induction tokens with
    | nil => rfl
    | cons token others inductionHypothesis =>
        rw [List.foldl_cons, if_neg nonempty, inductionHypothesis]
  induction tokens with
  | nil => rfl
  | cons token others inductionHypothesis =>
      rw [List.foldl_cons, if_pos rfl]
      by_cases empty : token = []
      · rw [empty, inductionHypothesis]
        simp
      · rw [kept others empty]
        simp [empty]

end Reading

/-! ## Against the command -/

namespace ServeCommand

variable [Numbers] (command : ServeCommand)

/-- The texts the parser may take for the root, in order. -/
def candidates : List Text :=
  command.before.flatMap ServeOption.mistaken ++
    command.root :: command.after.flatMap ServeOption.mistaken

/-- The last host given is no empty text. -/
def HostGiven : Prop := (command.valuesOf "--host").getLast? ≠ some []

def RootFirst : Prop := ∀ text ∈ command.candidates.find? (· ≠ []), text = command.root

theorem ports_valid : ∀ value ∈ command.valuesOf "--port", (parsePort value).isSome = true := by
  intro value member
  obtain ⟨option, given, valueIn⟩ := List.mem_flatMap.mp member
  have declared := command.declared option given
  cases option with
  | flag name => cases valueIn
  | separate name text =>
      rw [valuesOf_given rfl] at valueIn
      split at valueIn
      next port =>
        rw [List.mem_singleton.mp valueIn]
        exact declared.2.2 port
      next => cases valueIn
  | inline name text =>
      rw [valuesOf_given rfl] at valueIn
      split at valueIn
      next port =>
        rw [List.mem_singleton.mp valueIn]
        exact declared.2.2 port
      next => cases valueIn

theorem port_valid : 0 < command.settings.port ∧ command.settings.port ≤ 65535 := by
  unfold settings
  cases last : (command.valuesOf "--port").getLast?.bind parsePort with
  | none => exact ⟨by simp, by simp⟩
  | some port =>
      obtain ⟨value, -, parsed⟩ := Option.bind_eq_some_iff.mp last
      exact parsePort_valid parsed

/-- What process discovery reads of the command line. -/
theorem parseServeArgs_eq : parseServeArgs command.arguments =
    some { host := (command.valuesOf "--host").foldl
             (fun host value => if value = [] then host else value) "127.0.0.1"
           port := command.settings.port
           root := (command.candidates.find? (· ≠ [])).getD [] } := by
  obtain ⟨beforeDeclared, afterDeclared⟩ := List.forall_mem_append.mp command.declared
  have ended := fun settings => parseServeFrom_options afterDeclared settings []
  have taken : ∀ settings : ServeSettings, settings.takeRoot command.root =
      { settings with
        root := if settings.root = [] then command.root else settings.root } := by
    intro settings
    unfold ServeSettings.takeRoot
    split <;> rfl
  have values : ∀ name, command.valuesOf name =
      command.before.flatMap (ServeOption.valuesOf name) ++
        command.after.flatMap (ServeOption.valuesOf name) := fun name => List.flatMap_append
  have read : command.after.foldl ServeSettings.read
      ((command.before.foldl ServeSettings.read {}).takeRoot command.root) =
        { host := (command.valuesOf "--host").foldl
            (fun host value => if value = [] then host else value) "127.0.0.1"
          port := command.settings.port
          root := (command.candidates.find? (· ≠ [])).getD [] } := by
    rw [settings, ← last_port command.ports_valid, ← first_root, taken, read_all, read_all,
      values, values, candidates]
    simp only [List.foldl_append, List.foldl_cons]
    rfl
  simp only [List.append_nil] at ended
  rw [parseServeArgs, arguments, parseServeFrom_options beforeDeclared,
    parseServeFrom_plain command.root_plain, ended, read, parseServeFrom.eq_def]
  obtain ⟨positive, bounded⟩ := command.port_valid
  simp [ServeSettings.checked, positive, bounded]

/-- Process discovery reads a command line as the command does exactly when the last host is not
empty and no value it does not expect comes before the root. -/
theorem parseServeArgs_eq_settings_iff :
    parseServeArgs command.arguments = some command.settings ↔
      command.HostGiven ∧ command.RootFirst := by
  have root : (command.candidates.find? (· ≠ [])).getD [] = command.root ↔ command.RootFirst := by
    unfold RootFirst
    cases found : command.candidates.find? (· ≠ []) with
    | some text => simp
    | none =>
        rw [List.find?_eq_none] at found
        have empty : command.root = [] := by
          have passed := found command.root (by simp [candidates])
          simpa using passed
        exact iff_of_true empty.symm (by simp)
  have named : ("127.0.0.1" : Text) ≠ [] := by decide
  have host := @last_host (command.valuesOf "--host") "127.0.0.1" named
  rw [parseServeArgs_eq, Option.some.injEq, HostGiven, ← host, ← root]
  constructor
  · intro same
    exact ⟨congrArg ServeSettings.host same, congrArg ServeSettings.root same⟩
  · rintro ⟨sameHost, sameRoot⟩
    rw [sameHost, sameRoot]
    rfl

end ServeCommand

/-! ## A value the parser does not expect -/

/-- Numbers written with decimal digits. -/
@[reducible]
def plainNumbers : Numbers where
  halfPower exponent := 1 / 2 ^ exponent.floor.toNat
  floatOfText _ := none
  intOfText := Json.readInt

attribute [local instance] plainNumbers

/-- `--port=9000 --vector-model small wiki` -/
def modelCommand : ServeCommand where
  before := [.inline "--port" "9000", .separate "--vector-model" "small"]
  root := "wiki"
  after := []
  declared := by
    intro option given
    fin_cases given
    · exact ⟨by decide, by decide, fun _ => by decide⟩
    · exact ⟨by decide, by decide, fun port => absurd port (by decide)⟩
  root_plain := by decide

/-- The value is taken for the root. -/
theorem parseServeArgs_modelCommand :
    parseServeArgs modelCommand.arguments = some { port := 9000, root := "small" } ∧
      modelCommand.settings = { port := 9000, root := "wiki" } := by
  refine ⟨?_, ?_⟩
  · rfl
  · rfl

end LlmWikiServe
