import AlgorithmHarness.Core.Json
import AlgorithmHarness.Redaction.Secrets
import Mathlib.Data.List.DropRight

/-!
# Tag normalization

`TagManager` overlays a custom mapping on the built-in one, builds its index
of aliases in three loops and normalizes tags with it.  Of Unicode the model
leaves open the normal form, case folding and what a word character is.
-/

namespace AlgorithmHarness.Tags

open Redaction (isSpace)

/-- A scalar of a YAML file; numbers, truth values and dates by what `str` prints. -/
inductive Scalar where
  | null
  | str (value : String)
  | other (text : String) (truthy : Bool)
  deriving DecidableEq

inductive Yaml where
  | scalar (value : Scalar)
  | list (items : List Yaml)
  | map (entries : List (Scalar × Yaml))

abbrev Mapping := List (Scalar × Yaml)

/-- What the interpreter knows of Unicode and how it prints lists and dictionaries. -/
structure Interpreter where
  /-- `unicodedata.normalize("NFKC", value)` -/
  nfkc : String → String
  casefold : String → String
  /-- `\\w` -/
  isWord : Char → Bool
  repr : Yaml → String

/-- `str(value)` -/
def Scalar.text : Scalar → String
  | .null => "None"
  | .str value => value
  | .other text _ => text

def Yaml.text (interpreter : Interpreter) : Yaml → String
  | .scalar value => value.text
  | value => interpreter.repr value

def Yaml.truthy : Yaml → Bool
  | .scalar .null => false
  | .scalar (.str value) => value ≠ ""
  | .scalar (.other _ truthy) => truthy
  | .list items => !items.isEmpty
  | .map entries => !entries.isEmpty

/-- `mapping.get(key)` -/
def Mapping.get (mapping : Mapping) (key : Scalar) : Option Yaml := mapping.lookup key

/-- `mapping[key] = value` -/
def Mapping.set (mapping : Mapping) (key : Scalar) (value : Yaml) : Mapping :=
  if mapping.any fun entry => entry.1 = key then
    mapping.map fun entry => if entry.1 = key then (key, value) else entry
  else mapping ++ [(key, value)]

/-- `str.strip()` -/
def strip (text : String) : String :=
  String.ofList ((text.toList.dropWhile isSpace).rdropWhile isSpace)

/-- `_as_strings` -/
def asStrings (interpreter : Interpreter) : Yaml → Except String (List String)
  | .scalar .null => .ok []
  | .scalar (.str value) => .ok [value]
  | .list items =>
      .ok ((items.map (Yaml.text interpreter)).filter fun item => strip item ≠ "")
  | _ => .error "Tag aliases and keywords must be strings or lists"

/-! ## Overlaying a custom mapping -/

/-- `value.items()`; nothing but a dictionary has it. -/
def items : Yaml → Except String Mapping
  | .map entries => .ok entries
  | _ => .error "object has no attribute 'items'"

/-- One definition of a custom section over the built-in ones. -/
def overlayDefinition (interpreter : Interpreter) (target : Mapping) (entry : Scalar × Yaml) :
    Except String Mapping :=
  match target.get entry.1, entry.2 with
  | some (.map current), .map definition => do
      let overlaid ← ["aliases", "keywords"].foldlM (fun current key =>
        match Mapping.get definition (.str key) with
        | none => .ok current
        | some added => do
            let before ← asStrings interpreter
              ((Mapping.get current (.str key)).getD (.scalar .null))
            let after ← asStrings interpreter added
            let values := (before ++ after).eraseDups.map fun value => .scalar (.str value)
            return Mapping.set current (.str key) (.list values)) current
      return Mapping.set target entry.1 (.map overlaid)
  | _, definition => .ok (target.set entry.1 definition)

/-- A custom section of definitions over the built-in one. -/
def overlayDefinitions (interpreter : Interpreter) (custom merged : Mapping) (key : String) :
    Except String Mapping :=
  match custom.get (.str key) with
  | none => .ok merged
  | some added => do
      let target ← items ((merged.get (.str key)).getD (.map []))
      let overlaid ← (← items added).foldlM (overlayDefinition interpreter) target
      return merged.set (.str key) (.map overlaid)

/-- An element of a list given to `dict.update`. -/
def updatePair : Yaml → Except String (Scalar × Yaml)
  | .list [.scalar key, value] => .ok (key, value)
  | .map [(key, _), (value, _)] => .ok (key, .scalar value)
  | .scalar (.str text) =>
      match text.toList with
      | [key, value] => .ok (.str key.toString, .scalar (.str value.toString))
      | _ => .error "dictionary update sequence element has the wrong length"
  | _ => .error "cannot convert dictionary update sequence element to a sequence"

/-- What `dict.update` puts. -/
def updateEntries : Yaml → Except String Mapping
  | .map entries => .ok entries
  | .list items => items.mapM updatePair
  | .scalar (.str "") => .ok []
  | _ => .error "object is not iterable"

/-- A custom section that replaces entries. -/
def overlaySection (custom merged : Mapping) (key : String) : Except String Mapping :=
  match custom.get (.str key) with
  | none => .ok merged
  | some added => do
      let target ← items ((merged.get (.str key)).getD (.map []))
      let overlaid := (← updateEntries added).foldl
        (fun overlaid entry => Mapping.set overlaid entry.1 entry.2) target
      return merged.set (.str key) (.map overlaid)

/-- `_load_mapping_with_defaults` on the mappings of the two files; there is no built-in one when
the path is its own or its file is missing. -/
def loadMapping (interpreter : Interpreter) (builtIn : Option Mapping) (custom : Mapping) :
    Except String Mapping :=
  match builtIn with
  | none => .ok custom
  | some base => do
      let merged ← ["tags", "canonical_tags"].foldlM (overlayDefinitions interpreter custom) base
      let merged ← ["aliases", "keywords"].foldlM (overlaySection custom) merged
      let others := custom.filter fun entry =>
        entry.1 ∉ [.str "tags", .str "canonical_tags", .str "aliases", .str "keywords"]
      return others.foldl (fun merged entry => Mapping.set merged entry.1 entry.2) merged

/-! ## The indexes -/

/-- `re.sub(r"[\\s_]+", "-", ..)`, after a character that is replaced or after another one. -/
def joinWords : Bool → List Char → List Char
  | _, [] => []
  | inRun, c :: rest =>
      if isSpace c || c = '_' then
        if inRun then joinWords true rest else '-' :: joinWords true rest
      else c :: joinWords false rest

/-- `_key` -/
def key (interpreter : Interpreter) (value : String) : String :=
  let normalized := strip (interpreter.casefold (interpreter.nfkc value))
  let joined := joinWords false normalized.toList
  let kept := joined.filter fun c =>
    interpreter.isWord c || c = '-' || (0x3400 ≤ c.toNat && c.toNat ≤ 0x9fff)
  String.ofList ((kept.dropWhile (· = '-')).rdropWhile (· = '-'))

structure Indexes where
  aliases : AList fun _ : String => String := ∅
  keywords : AList fun _ : String => List String := ∅

/-- `index.setdefault(key, value)` -/
def setDefault {Value : Type} (index : AList fun _ : String => Value) (key : String)
    (value : Value) : AList fun _ : String => Value :=
  if key ∈ index then index else index.insert key value

variable (interpreter : Interpreter)

/-- The aliases and the keywords of a definition. -/
def definitionStrings : Yaml → Except String (List String × List String)
  | .map definition => do
      let read key := asStrings interpreter
        ((Mapping.get definition (.str key)).getD (.scalar .null))
      let aliases ← read "aliases"
      let keywords ← read "keywords"
      return (aliases, keywords)
  | definition => (asStrings interpreter definition).map fun aliases => (aliases, [])

/-- A round of the loop over the definitions. -/
def addDefinition (indexes : Indexes) (entry : Scalar × Yaml) : Except String Indexes :=
  let name := strip entry.1.text
  if name = "" then .ok indexes
  else
    (definitionStrings interpreter entry.2).map fun strings =>
      { aliases :=
          strings.1.foldl (fun index spelling => index.insert (key interpreter spelling) name)
            (indexes.aliases.insert (key interpreter name) name)
        keywords :=
          indexes.keywords.insert name (name :: strings.2 ++ strings.1).eraseDups }

/-- A round of the loop over the `aliases` section. -/
def addAlias (indexes : Indexes) (entry : Scalar × Yaml) : Indexes :=
  let name := strip (entry.2.text interpreter)
  { aliases :=
      setDefault (indexes.aliases.insert (key interpreter entry.1.text) name)
        (key interpreter name) name
    keywords := setDefault indexes.keywords name [name] }

/-- A round of the loop over the `keywords` section. -/
def addKeywords (indexes : Indexes) (entry : Scalar × Yaml) : Except String Indexes :=
  let name := strip entry.1.text
  (asStrings interpreter entry.2).map fun phrases =>
    { aliases := setDefault indexes.aliases (key interpreter name) name
      keywords :=
        indexes.keywords.insert name
          ((indexes.keywords.lookup name).getD [name] ++ phrases).eraseDups }

/-- The entries of a section that may be missing or empty. -/
def sectionEntries (payload : Mapping) (name : String) : Except String Mapping :=
  let value := (payload.get (.str name)).getD (.map [])
  if value.truthy then
    match value with
    | .map entries => .ok entries
    | _ => .error ("Tag mapping '" ++ name ++ "' must be a mapping")
  else .ok []

/-- The entries of `tags`, or of `canonical_tags` where it is missing. -/
def definitionEntries (payload : Mapping) : Except String Mapping :=
  let definitions := (payload.get (.str "tags")).or (payload.get (.str "canonical_tags"))
  match definitions.getD (.map []) with
  | .map entries => .ok entries
  | _ => .error "Tag mapping 'tags' must be a mapping"

/-- `_build_indexes` -/
def buildIndexes (payload : Mapping) : Except String Indexes := do
  let definitions ← definitionEntries payload
  let indexes ← definitions.foldlM (addDefinition interpreter) {}
  let aliases ← sectionEntries payload "aliases"
  let keywords ← sectionEntries payload "keywords"
  keywords.foldlM (addKeywords interpreter) (aliases.foldl (addAlias interpreter) indexes)

structure TagManager where
  mapping : Mapping
  indexes : Indexes

/-- `TagManager(path)` -/
def TagManager.load (builtIn : Option Mapping) (custom : Mapping) :
    Except String TagManager := do
  let mapping ← loadMapping interpreter builtIn custom
  let indexes ← buildIndexes interpreter mapping
  return { mapping, indexes }

/-! ## Normalization -/

/-- `normalize_tag` -/
def normalizeTag (indexes : Indexes) (tag : String) : String :=
  let raw := strip tag
  if raw = "" then ""
  else
    match indexes.aliases.lookup (key interpreter raw) with
    | some mapped => if mapped = "" then key interpreter raw else mapped
    | none => key interpreter raw

/-- `normalize_tags`; the tags seen are those normalized so far. -/
def normalizeTags (indexes : Indexes) (tags : List String) : List String :=
  tags.foldl (fun normalized tag =>
    let canonical := normalizeTag interpreter indexes tag
    if canonical ≠ "" ∧ canonical ∉ normalized then normalized ++ [canonical] else normalized) []

end AlgorithmHarness.Tags
