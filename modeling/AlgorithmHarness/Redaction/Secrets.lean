import AlgorithmHarness.Core.Json
import AlgorithmHarness.Core.Pattern
import AlgorithmHarness.Core.Substitution

/-!
# Redaction of credentials

`redact_sensitive_text` passes over a text three times: authorization headers,
bearer tokens, assignments to credential fields.  Texts are lists of
characters; what `\w` and `str.casefold` make of a character is a table of the
Unicode database.
-/

namespace AlgorithmHarness.Redaction

open Pattern Substitution

/-- Word characters and case folding. -/
structure Unicode where
  isWord : Char → Bool
  casefold : Char → List Char

def redacted : List Char := ['[', 'R', 'E', 'D', 'A', 'C', 'T', 'E', 'D', ']']

def sensitiveKeys : List String :=
  ["api_key", "apikey", "authorization", "access_token", "refresh_token", "id_token",
    "auth_token", "token", "password", "passwd", "secret", "credential", "credentials",
    "webhook_url", "slack_webhook_url"]

/-- Whether a mapping key conventionally contains a credential. -/
def isSensitiveKey (unicode : Unicode) (key : List Char) : Bool :=
  let normalized := (key.flatMap unicode.casefold).map fun c => if c = '-' then '_' else c
  sensitiveKeys.any fun sensitive =>
    normalized = sensitive.toList || ('_' :: sensitive.toList).isSuffixOf normalized

/-! ## The patterns -/

/-- `\s` -/
def isSpace (c : Char) : Bool :=
  (9 ≤ c.toNat && c.toNat ≤ 13) || (28 ≤ c.toNat && c.toNat ≤ 32) || c.toNat = 0x85 ||
    c.toNat = 0xa0 || c.toNat = 0x1680 || (0x2000 ≤ c.toNat && c.toNat ≤ 0x200a) ||
    c.toNat = 0x2028 || c.toNat = 0x2029 || c.toNat = 0x202f || c.toNat = 0x205f ||
    c.toNat = 0x3000

def isQuote (c : Char) : Bool := c = '"' || c = '\''

def isSeparator (c : Char) : Bool := c = ':' || c = '='

def isKeyStart (c : Char) : Bool := c.isAlpha || c = '_'

def isKeyChar (c : Char) : Bool := c.isAlphanum || c = '_' || c = '-'

/-- `[^\s,;&}]` -/
def isPlain (c : Char) : Bool := !(isSpace c || c = ',' || c = ';' || c = '&' || c = '}')

/-- `[^\r\n}]` -/
def isHeader (c : Char) : Bool := !(c = '\r' || c = '\n' || c = '}')

/-- `[^\s,;]` -/
def isToken (c : Char) : Bool := !(isSpace c || c = ',' || c = ';')

/-- `(?i)` on a small letter; the dotted and the dotless i, the long s and the
Kelvin sign are letters of the same case. -/
def sameIgnoringCase (letter c : Char) : Bool :=
  c = letter || c = letter.toUpper || (letter = 'i' && (c.toNat = 0x130 || c.toNat = 0x131)) ||
    (letter = 's' && c.toNat = 0x17f) || (letter = 'k' && c.toNat = 0x212a)

/-- `\\.|[^q\\]` for the quote `q` -/
def quotedChar (quote : Char) : Matcher (List Char) :=
  orElse
    (andThen (one (· = '\\')) fun escape => andThen (one (· ≠ '\n')) fun c => done [escape, c])
    (andThen (one fun c => c ≠ quote && c ≠ '\\') fun c => done [c])

/-- `_DOUBLE_QUOTED_VALUE` and `_SINGLE_QUOTED_VALUE` -/
def quoted (quote : Char) : Matcher (List Char) :=
  andThen (one (· = quote)) fun opening => andThen (star (quotedChar quote)) fun body =>
    andThen (one (· = quote)) fun closing => done (opening :: (body ++ [closing]))

def quotedValue : Matcher (List Char) := orElse (quoted '"') (quoted '\'')

/-- What a match captures: the text before the value, the key in it and the value. -/
structure Assignment where
  leading : List Char
  key : List Char
  value : List Char
  deriving DecidableEq

/-- `\s*[:=]\s*` and a value -/
def assigned (value : Matcher (List Char)) (leading key : List Char) : Matcher Assignment :=
  andThen (many isSpace) fun before => andThen (one isSeparator) fun separator =>
    andThen (many isSpace) fun after => andThen value fun value =>
      done { leading := leading ++ before ++ separator :: after, key, value }

def authorization : List Char :=
  ['a', 'u', 't', 'h', 'o', 'r', 'i', 'z', 'a', 't', 'i', 'o', 'n']

/-- `_AUTHORIZATION_VALUE` -/
def authorizationValue : Matcher Assignment :=
  andThen (optional isQuote) fun opening => andThen (word sameIgnoringCase authorization) fun key =>
    andThen (optional isQuote) fun closing =>
      assigned (orElse quotedValue (many1 isHeader)) (opening ++ key ++ closing) key

def bearer : List Char := ['b', 'e', 'a', 'r', 'e', 'r']

/-- `_BEARER_VALUE` behind its `\b` -/
def bearerValue : Matcher Assignment :=
  andThen (word sameIgnoringCase bearer) fun key => andThen (many1 isSpace) fun after =>
    andThen (many1 isToken) fun value => done { leading := key ++ after, key, value }

/-- `_KEY_VALUE`; the quote before the key is repeated behind it. -/
def keyValue : Matcher Assignment :=
  andThen (optional isQuote) fun quote => andThen (one isKeyStart) fun c =>
    andThen (many isKeyChar) fun cs => andThen (word (· = ·) quote) fun closing =>
      assigned (orElse quotedValue (many1 isPlain)) (quote ++ c :: cs ++ closing) (c :: cs)

/-! ## The replacements -/

def Assignment.whole (found : Assignment) : List Char := found.leading ++ found.value

def isQuotedValue (value : List Char) : Bool :=
  2 ≤ value.length && value.head? = value.getLast? && value.head?.any isQuote

def redactedAssignment (found : Assignment) : List Char :=
  let unquoted := if isQuotedValue found.value then found.value.tail.dropLast else found.value
  if unquoted = redacted then found.whole
  else if isQuotedValue found.value then
    found.leading ++ (found.value.head?.toList ++ redacted ++ found.value.getLast?.toList)
  else found.leading ++ redacted

def redactKeyValue (unicode : Unicode) (found : Assignment) : List Char :=
  if isSensitiveKey unicode found.key then redactedAssignment found else found.whole

/-- The first match of a pattern. -/
def firstMatch (pattern : Matcher Assignment) (text : List Char) : Option Assignment :=
  (pattern text).head?.map Prod.fst

def authorizationFinder : Finder := fun _ text =>
  (firstMatch authorizationValue text).map fun found => (found.whole, redactedAssignment found)

/-- `\b` -/
def wordBoundary (unicode : Unicode) (before : Option Char) (text : List Char) : Bool :=
  before.any unicode.isWord != text.head?.any unicode.isWord

def bearerFinder (unicode : Unicode) : Finder := fun before text =>
  if wordBoundary unicode before text then
    (firstMatch bearerValue text).map fun found => (found.whole, found.leading ++ redacted)
  else none

def keyValueFinder (unicode : Unicode) : Finder := fun _ text =>
  (firstMatch keyValue text).map fun found => (found.whole, redactKeyValue unicode found)

/-- `pattern.sub` -/
def sub (find : Finder) (text : List Char) : List Char := substitute find 0 none text

/-- The alternatives of the known values, the longest first. -/
def knownFinder (values : List (List Char)) : Finder := fun _ text =>
  ((values.mergeSort fun first second => second.length ≤ first.length).find?
    fun value => value.isPrefixOf text).map fun value => (value, redacted)

def replaceKnown (knownSecrets : List (List Char)) (text : List Char) : List Char :=
  let values := knownSecrets.filter fun value => value ≠ [] && value ≠ redacted
  if values = [] then text else sub (knownFinder (redacted :: values)) text

/-- What the first two passes leave. -/
def withoutHeaders (unicode : Unicode) (text : List Char) : List Char :=
  sub (bearerFinder unicode) (sub authorizationFinder text)

def redactChars (unicode : Unicode) (knownSecrets : List (List Char)) (text : List Char) :
    List Char :=
  replaceKnown knownSecrets (sub (keyValueFinder unicode) (withoutHeaders unicode text))

def redactSensitiveText (unicode : Unicode) (knownSecrets : List String) (text : String) :
    String :=
  String.ofList (redactChars unicode (knownSecrets.map String.toList) text.toList)

/-- A credential field of a mapping: nothing is invented where nothing is. -/
def redactCredential : Json → Json
  | .null => .null
  | .str value => if value = "" then .str value else .str (String.ofList redacted)
  | _ => .str (String.ofList redacted)

mutual

def redactSensitiveData (unicode : Unicode) (knownSecrets : List String) : Json → Json
  | .str value => .str (redactSensitiveText unicode knownSecrets value)
  | .arr items => .arr (redactItems unicode knownSecrets items)
  | .obj members => .obj (redactMembers unicode knownSecrets members)
  | .null => .null
  | .bool value => .bool value
  | .num value => .num value

def redactItems (unicode : Unicode) (knownSecrets : List String) : List Json → List Json
  | [] => []
  | item :: items =>
      redactSensitiveData unicode knownSecrets item :: redactItems unicode knownSecrets items

/-- `_redact_mapping_value` for each member. -/
def redactMembers (unicode : Unicode) (knownSecrets : List String) :
    List (String × Json) → List (String × Json)
  | [] => []
  | (key, item) :: members =>
      (key, if isSensitiveKey unicode key.toList then redactCredential item
        else redactSensitiveData unicode knownSecrets item) ::
      redactMembers unicode knownSecrets members

end

end AlgorithmHarness.Redaction
