import LlmWikiServe.Foundation.Json
import LlmWikiServe.Foundation.Rewriting
import LlmWikiServe.Guidance

/-!
# Redaction of the I/O log

Everything a server writes to its log is gone through first.  The strings of a value are rewritten
by one substitution after the other, what is stored under a sensitive name is replaced as a whole,
and names stay as they are.
-/

namespace LlmWikiServe.IoLog

universe u

open Pattern Rewriting

def redaction : Text := "[REDACTED]"

def localRootRedaction : Text := "[REDACTED_LOCAL_ROOT]"

/-! ## The patterns -/

/-- `[A-Za-z0-9_-]` of a case-insensitive pattern. -/
def isNameChar (char : Char) : Bool :=
  isFoldedLetter char || isAsciiDigit char || char = '_' || char = '-'

/-- `[^\s"'<>]` -/
def isPlainChar (char : Char) : Bool := !Text.isSpace char && char ∉ ['"', '\'', '<', '>']

/-- `["']` -/
def quoteMark : Pattern := .one (· ∈ ['"', '\''])

def anyFolded (words : List Text) : Pattern := Pattern.any (words.map folded)

/-- `api[-_]?key` of a case-insensitive pattern. -/
def apiKeyPattern : Pattern :=
  Pattern.all [folded "api", opt (.one (· ∈ ['-', '_'])), folded "key"]

/-- `_SENSITIVE_KEY_RE` -/
def sensitiveKeyPattern : Pattern :=
  Pattern.any
    [anyFolded
      ["authorization", "cookie", "token", "secret", "password", "passwd", "credential"],
      apiKeyPattern, anyFolded ["session", "jwt", "bearer"]]

/-- `is_sensitive_key(key)` -/
def isSensitiveKey (key : Text) : Bool := (Pattern.search sensitiveKeyPattern key).isSome

section Patterns

variable [Unicode]

/-- `_BEARER_RE` and `_BASIC_RE`: a scheme and the characters of its credentials. -/
def schemePattern (scheme : Text) (isCredential : Char → Bool) : Pattern :=
  Pattern.all [wordBoundary, folded scheme, plus space, plus (.one isCredential)]

def bearerPattern : Pattern :=
  schemePattern "bearer" fun char =>
    isFoldedLetter char || isAsciiDigit char || char ∈ ['.', '_', '~', '+', '/', '=', '-']

def basicPattern : Pattern :=
  schemePattern "basic" fun char =>
    isFoldedLetter char || isAsciiDigit char || char ∈ ['+', '/', '=', '-']

/-- `_COOKIE_LINE_RE` -/
def cookieLinePattern : Pattern :=
  Pattern.all
    [wordBoundary, .group 1 (anyFolded ["set-cookie", "cookie"]), .star space, Pattern.char ':',
      .star space, plus (.one fun char => char ≠ '\r' && char ≠ '\n')]

/-- A word, and at least eight characters of a key behind it. -/
def keyPattern (word : Pattern) (isKeyChar : Char → Bool) : Pattern :=
  Pattern.all [wordBoundary, word, atLeast (.one isKeyChar) 8, wordBoundary]

/-- `_OPENAI_KEY_RE` -/
def openaiKeyPattern : Pattern :=
  let isKeyChar (char : Char) : Bool :=
    isLetter char || isAsciiDigit char || char = '_' || char = '-'
  .alt (keyPattern (Pattern.text "sk-proj-") isKeyChar) (keyPattern (Pattern.text "sk-") isKeyChar)

/-- `_GITHUB_TOKEN_RE` -/
def githubTokenPattern : Pattern :=
  keyPattern
    (.seq
      (Pattern.any
        [Pattern.text "ghp", Pattern.text "gho", Pattern.text "ghu", Pattern.text "ghs",
          Pattern.text "github_pat"])
      (Pattern.char '_'))
    fun char => isLetter char || isAsciiDigit char || char = '_'

omit [Unicode] in
/-- `_QUERY_SECRET_RE` -/
def querySecretPattern : Pattern :=
  let separator := opt (.one (· ∈ ['_', '-']))
  let pair (first second : Text) := Pattern.all [folded first, separator, folded second]
  .seq
    (.group 1
      (Pattern.all
        [.alt (.guard fun before _ => before = []) (.one (· ∈ ['?', '&'])),
          Pattern.any
            [pair "api" "key", pair "access" "token", pair "refresh" "token", pair "id" "token",
              anyFolded ["token", "key", "secret"], pair "client" "secret",
              anyFolded ["password", "credential", "code", "sig", "signature"]],
          Pattern.char '=']))
    (plus (.one fun char => isPlainChar char && char ≠ '&'))

omit [Unicode] in
/-- `_URL_RE` -/
def urlPattern : Pattern :=
  Pattern.all [folded "http", opt (folded "s"), Pattern.text "://", plus (.one isPlainChar)]

/-- `_WINDOWS_PATH_RE` -/
def windowsPathPattern : Pattern :=
  Pattern.all [wordBoundary, .one isLetter, Pattern.text ":\\", plus (.one isPlainChar)]

omit [Unicode] in
/-- `_UNC_PATH_RE` -/
def uncPathPattern : Pattern :=
  Pattern.all
    [Pattern.text "\\\\", plus (.one fun char => isPlainChar char && char ≠ '\\'),
      Pattern.char '\\', plus (.one isPlainChar)]

omit [Unicode] in
/-- `_POSIX_PRIVATE_PATH_RE` -/
def posixPrivatePathPattern : Pattern :=
  Pattern.all
    [Pattern.char '/',
      Pattern.any
        [Pattern.text "Users", Pattern.text "home", Pattern.text "var/folders",
          Pattern.text "var/tmp", Pattern.text "tmp"],
      Pattern.char '/', plus (.one isPlainChar)]

omit [Unicode] in
def secretNamePattern : Pattern :=
  Pattern.all
    [.star (.one isNameChar),
      .alt (anyFolded ["token", "secret", "password", "credential"]) apiKeyPattern,
      .star (.one isNameChar)]

omit [Unicode] in
/-- `\s*[:=]\s*` -/
def assignmentPattern : Pattern :=
  Pattern.all [.star space, .one (· ∈ [':', '=']), .star space]

omit [Unicode] in
/-- `_QUOTED_SECRET_ASSIGNMENT_RE` -/
def quotedSecretAssignmentPattern : Pattern :=
  Pattern.all
    [.group 1
      (Pattern.all
        [opt quoteMark, secretNamePattern, opt quoteMark, assignmentPattern, quoteMark]),
      .group 2 (plus (.one fun char => char ∉ ['"', '\''])), .group 3 quoteMark]

/-- `_SECRET_ASSIGNMENT_RE` -/
def secretAssignmentPattern : Pattern :=
  Pattern.all
    [wordBoundary, .group 1 secretNamePattern, .group 2 assignmentPattern,
      .group 3 (plus (.one fun char => !Text.isSpace char && char ∉ [',', ';', '&', '"', '\'']))]

/-! ## Strings -/

def groupText (found : Pattern.Match) (index : Nat) : Text := (found.group? index).getD []

/-- The substitutions behind the replacement of the roots, in their order. -/
def substitutions : List (Pattern × (Pattern.Match → Text)) :=
  [(bearerPattern, fun _ => "Bearer " ++ redaction),
    (basicPattern, fun _ => "Basic " ++ redaction),
    (cookieLinePattern, fun found => groupText found 1 ++ (": " : Text) ++ redaction),
    (openaiKeyPattern, fun _ => redaction),
    (githubTokenPattern, fun _ => redaction),
    (querySecretPattern, fun found => groupText found 1 ++ redaction),
    (urlPattern, fun _ => "[REDACTED_URL]"),
    (windowsPathPattern, fun _ => localRootRedaction),
    (uncPathPattern, fun _ => localRootRedaction),
    (posixPrivatePathPattern, fun _ => localRootRedaction),
    (quotedSecretAssignmentPattern, fun found =>
      groupText found 1 ++ redaction ++ groupText found 3),
    (secretAssignmentPattern, fun found => groupText found 1 ++ groupText found 2 ++ redaction)]

/-- `redact_string(value, local_roots)` -/
def redactString (localRoots : List Text) (value : Text) : Text :=
  let redacted := localRoots.foldl (fun redacted root =>
    if root = [] then redacted else Text.replace root localRootRedaction redacted) value
  substitutions.foldl (fun redacted substitution =>
    Pattern.sub substitution.1 substitution.2 redacted) redacted

end Patterns

/-! ## Values -/

section Values

variable {F : Type u} [Unicode]

mutual

/-- `redact_value(value, local_roots)` -/
def redactValue (localRoots : List Text) : Json F → Json F
  | .null => .null
  | .bool value => .bool value
  | .int value => .int value
  | .float value => .float value
  | .string text => .string (redactString localRoots text)
  | .array items => .array (redactItems localRoots items)
  | .object members => .object (redactMembers localRoots members)
termination_by structural value => value

def redactItems (localRoots : List Text) : List (Json F) → List (Json F)
  | [] => []
  | item :: items => redactValue localRoots item :: redactItems localRoots items
termination_by structural items => items

def redactMember (localRoots : List Text) : Text × Json F → Text × Json F
  | (key, item) =>
      (key, if isSensitiveKey key then .string redaction else redactValue localRoots item)
termination_by structural member => member

def redactMembers (localRoots : List Text) : List (Text × Json F) → List (Text × Json F)
  | [] => []
  | member :: members => redactMember localRoots member :: redactMembers localRoots members
termination_by structural members => members

end

end Values

end LlmWikiServe.IoLog
