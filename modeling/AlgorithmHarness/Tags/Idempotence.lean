import AlgorithmHarness.Tags.TagManager
import Mathlib.Data.List.Induction

/-!
# When normalization is idempotent

Each loop over the mapping claims keys for names: a definition and an alias
take a key, a name that is only referred to takes its own key if it is free.
The index holds the name that prevails, and normalization is idempotent
exactly if each name in force prevails on its own key.
-/

namespace AlgorithmHarness.Tags

open Redaction (isSpace)

/-! ## Claims -/

inductive Claim where
  /-- The key is taken from whoever has it. -/
  | takes (key name : String)
  /-- The key is taken if it is free. -/
  | offers (key name : String)
  deriving DecidableEq

namespace Claim

def key : Claim → String
  | takes key _ => key
  | offers key _ => key

def name : Claim → String
  | takes _ name => name
  | offers _ name => name

def taken (key : String) : Claim → Option String
  | takes claimed name => if claimed = key then some name else none
  | offers _ _ => none

def offered (key : String) : Claim → Option String
  | takes _ _ => none
  | offers claimed name => if claimed = key then some name else none

def apply (index : AList fun _ : String => String) : Claim → AList fun _ : String => String
  | takes key name => index.insert key name
  | offers key name => setDefault index key name

end Claim

/-- The name that prevails on a key: the last that takes it, else the first that is offered. -/
def winner (claims : List Claim) (key : String) : Option String :=
  (claims.reverse.findSome? (Claim.taken key)).or (claims.findSome? (Claim.offered key))

theorem winner_append (claims : List Claim) (claim : Claim) (key : String) :
    winner (claims ++ [claim]) key =
      (claim.taken key).or ((winner claims key).or (claim.offered key)) := by
  rw [winner, winner, List.reverse_append, List.reverse_singleton, List.singleton_append,
    List.findSome?_cons, List.findSome?_append, List.findSome?_singleton, Option.or_assoc]
  cases claim.taken key with
  | none => rw [Option.none_or]
  | some name => rfl

theorem lookup_foldl_apply (claims : List Claim) (key : String) :
    (claims.foldl Claim.apply ∅).lookup key = winner claims key := by
  induction claims using List.reverseRecOn with
  | nil => rfl
  | append_singleton claims claim ih =>
      rw [List.foldl_append, List.foldl_cons, List.foldl_nil, winner_append, ← ih]
      cases claim with
      | takes claimed name =>
          rw [Claim.apply, Claim.taken, Claim.offered, Option.or_none]
          split_ifs with hsame
          · rw [hsame, AList.lookup_insert]
            rfl
          · rw [AList.lookup_insert_ne (Ne.symm hsame), Option.none_or]
      | offers claimed name =>
          rw [Claim.apply, Claim.taken, Claim.offered, Option.none_or, setDefault]
          generalize claims.foldl Claim.apply ∅ = index
          by_cases hsame : claimed = key
          · subst hsame
            rw [if_pos rfl]
            split_ifs with hmem
            · obtain ⟨found, hfound⟩ := Option.isSome_iff_exists.mp (AList.lookup_isSome.mpr hmem)
              rw [hfound, Option.some_or]
            · rw [AList.lookup_insert, AList.lookup_eq_none.mpr hmem, Option.none_or]
          · rw [if_neg hsame, Option.or_none]
            split_ifs
            · rfl
            · exact AList.lookup_insert_ne (Ne.symm hsame)

theorem winner_mem {claims : List Claim} {key name : String}
    (hwinner : winner claims key = some name) :
    ∃ claim ∈ claims, claim.key = key ∧ claim.name = name := by
  rw [winner, Option.or_eq_some_iff] at hwinner
  cases hwinner with
  | inl htaken =>
      obtain ⟨claim, hmem, hname⟩ := List.exists_of_findSome?_eq_some htaken
      cases claim with
      | takes claimed claimant =>
          rw [Claim.taken, Option.ite_none_right_eq_some] at hname
          exact ⟨_, List.mem_reverse.mp hmem, hname.1, Option.some_inj.mp hname.2⟩
      | offers claimed claimant => cases hname
  | inr hoffered =>
      obtain ⟨claim, hmem, hname⟩ := List.exists_of_findSome?_eq_some hoffered.2
      cases claim with
      | takes claimed claimant => cases hname
      | offers claimed claimant =>
          rw [Claim.offered, Option.ite_none_right_eq_some] at hname
          exact ⟨_, hmem, hname.1, Option.some_inj.mp hname.2⟩

/-- A claimed key has a name. -/
theorem winner_ne_none {claims : List Claim} {claim : Claim} (hmem : claim ∈ claims) :
    winner claims claim.key ≠ none := by
  intro hnone
  rw [winner, Option.or_eq_none_iff, List.findSome?_eq_none_iff, List.findSome?_eq_none_iff]
    at hnone
  cases claim with
  | takes claimed name =>
      have htaken := hnone.1 _ (List.mem_reverse.mpr hmem)
      rw [Claim.taken, Claim.key, if_pos rfl] at htaken
      cases htaken
  | offers claimed name =>
      have hoffered := hnone.2 _ hmem
      rw [Claim.offered, Claim.key, if_pos rfl] at hoffered
      cases hoffered

/-! ## The claims of a mapping -/

section Mapping

variable (interpreter : Interpreter)

def definitionAliases (definition : Yaml) : List String :=
  ((definitionStrings interpreter definition).toOption.map Prod.fst).getD []

/-- A definition takes its own key and those of its aliases. -/
def definitionClaims (entry : Scalar × Yaml) : List Claim :=
  let name := strip entry.1.text
  if name = "" then []
  else
    .takes (key interpreter name) name ::
      (definitionAliases interpreter entry.2).map fun spelling =>
        .takes (key interpreter spelling) name

/-- An alias takes a key for a name, which is offered its own. -/
def aliasClaims (entry : Scalar × Yaml) : List Claim :=
  let name := strip (entry.2.text interpreter)
  [.takes (key interpreter entry.1.text) name, .offers (key interpreter name) name]

def keywordClaims (entry : Scalar × Yaml) : List Claim :=
  let name := strip entry.1.text
  [.offers (key interpreter name) name]

/-- The claims of the three loops. -/
def claims (payload : Mapping) : List Claim :=
  ((definitionEntries payload).toOption.getD []).flatMap (definitionClaims interpreter) ++
    ((sectionEntries payload "aliases").toOption.getD []).flatMap (aliasClaims interpreter) ++
      ((sectionEntries payload "keywords").toOption.getD []).flatMap (keywordClaims interpreter)

end Mapping

section Index

variable {interpreter : Interpreter} {payload : Mapping} {indexes : Indexes}

theorem aliases_addDefinition {entry : Scalar × Yaml} {before after : Indexes}
    (hadd : addDefinition interpreter before entry = .ok after) :
    after.aliases = (definitionClaims interpreter entry).foldl Claim.apply before.aliases := by
  rw [addDefinition] at hadd
  rw [definitionClaims]
  by_cases hname : strip entry.1.text = ""
  · rw [if_pos hname] at hadd ⊢
    cases hadd
    rfl
  · rw [if_neg hname, map_eq_ok] at hadd
    obtain ⟨strings, hstrings, rfl⟩ := hadd
    rw [if_neg hname, definitionAliases, hstrings, List.foldl_cons, List.foldl_map]
    rfl

/-- A loop whose rounds each follow their claims follows all of them. -/
theorem aliases_foldlM (round : Indexes → Scalar × Yaml → Except String Indexes)
    (roundClaims : Scalar × Yaml → List Claim) {entries : Mapping} {before after : Indexes}
    (hround : ∀ entry before after, round before entry = .ok after →
      after.aliases = (roundClaims entry).foldl Claim.apply before.aliases)
    (hloop : entries.foldlM round before = .ok after) :
    after.aliases = (entries.flatMap roundClaims).foldl Claim.apply before.aliases := by
  induction entries generalizing before with
  | nil =>
      cases hloop
      rfl
  | cons entry entries ih =>
      rw [List.foldlM_cons, bind_eq_ok] at hloop
      obtain ⟨next, hfirst, hrest⟩ := hloop
      rw [List.flatMap_cons, List.foldl_append, ← hround entry before next hfirst]
      exact ih hrest

theorem aliases_addAlias (entries : Mapping) (before : Indexes) :
    (entries.foldl (addAlias interpreter) before).aliases =
      (entries.flatMap (aliasClaims interpreter)).foldl Claim.apply before.aliases := by
  induction entries generalizing before with
  | nil => rfl
  | cons entry entries ih =>
      have hround : (addAlias interpreter before entry).aliases =
          (aliasClaims interpreter entry).foldl Claim.apply before.aliases := by
        rw [addAlias, aliasClaims, List.foldl_cons, List.foldl_cons, List.foldl_nil, Claim.apply,
          Claim.apply]
      rw [List.foldl_cons, List.flatMap_cons, List.foldl_append, ← hround, ih]

theorem aliases_addKeywords {entry : Scalar × Yaml} {before after : Indexes}
    (hadd : addKeywords interpreter before entry = .ok after) :
    after.aliases = (keywordClaims interpreter entry).foldl Claim.apply before.aliases := by
  rw [addKeywords, map_eq_ok] at hadd
  obtain ⟨phrases, -, rfl⟩ := hadd
  rw [keywordClaims, List.foldl_cons, List.foldl_nil, Claim.apply]

/-- The index holds the name that prevails. -/
theorem lookup_aliases (hbuild : buildIndexes interpreter payload = .ok indexes)
    (wanted : String) :
    indexes.aliases.lookup wanted = winner (claims interpreter payload) wanted := by
  rw [← lookup_foldl_apply]
  apply congrArg
  rw [buildIndexes, bind_eq_ok] at hbuild
  obtain ⟨definitions, hdefinitions, hbuild⟩ := hbuild
  obtain ⟨defined, hdefined, hbuild⟩ := bind_eq_ok.mp hbuild
  obtain ⟨aliases, haliases, hbuild⟩ := bind_eq_ok.mp hbuild
  obtain ⟨keywords, hkeywords, hbuild⟩ := bind_eq_ok.mp hbuild
  rw [aliases_foldlM (addKeywords interpreter) (keywordClaims interpreter)
      (fun _ _ _ => aliases_addKeywords) hbuild,
    aliases_addAlias,
    aliases_foldlM (addDefinition interpreter) (definitionClaims interpreter)
      (fun _ _ _ => aliases_addDefinition) hdefined,
    claims, hdefinitions, haliases, hkeywords, List.foldl_append, List.foldl_append]
  rfl

/-! ### Names and slugs -/

theorem toList_strip (text : String) :
    (strip text).toList = (text.toList.dropWhile isSpace).rdropWhile isSpace :=
  String.toList_ofList

/-- A text that neither starts nor ends with a space stays. -/
theorem strip_eq_self {text : String} (hfirst : text.toList.dropWhile isSpace = text.toList)
    (hlast : text.toList.rdropWhile isSpace = text.toList) : strip text = text := by
  rw [strip, hfirst, hlast, String.ofList_toList]

theorem strip_strip (text : String) : strip (strip text) = strip text := by
  apply strip_eq_self
  · rw [toList_strip, List.dropWhile_eq_self_iff]
    intro hlength hspace
    have hinitial := List.rdropWhile_prefix isSpace (text.toList.dropWhile isSpace)
    have hdropped := List.dropWhile_eq_self_iff.mp
      (List.dropWhile_idempotent isSpace text.toList) (hlength.trans_le hinitial.length_le)
    rw [hinitial.getElem hlength] at hspace
    exact hdropped hspace
  · rw [toList_strip, List.rdropWhile_idempotent]

/-- A claim that the loops make: its name is stripped and has claimed its own key. -/
structure Founded (interpreter : Interpreter) (claims : List Claim) (claim : Claim) : Prop where
  stripped : strip claim.name = claim.name
  own : ∃ other ∈ claims, other.key = key interpreter claim.name

theorem Founded.mono {claims others : List Claim} {claim : Claim}
    (hfounded : Founded interpreter claims claim) (hsub : claims ⊆ others) :
    Founded interpreter others claim := by
  obtain ⟨other, hmem, hkey⟩ := hfounded.own
  exact ⟨hfounded.stripped, other, hsub hmem, hkey⟩

theorem founded_definitionClaims (entry : Scalar × Yaml) :
    ∀ claim ∈ definitionClaims interpreter entry,
      Founded interpreter (definitionClaims interpreter entry) claim := by
  rw [definitionClaims]
  split_ifs
  · exact fun _ hmem => absurd hmem List.not_mem_nil
  · intro claim hmem
    have hname : claim.name = strip entry.1.text := by
      cases List.mem_cons.mp hmem with
      | inl hfirst => rw [hfirst, Claim.name]
      | inr hlater =>
          obtain ⟨spelling, -, rfl⟩ := List.mem_map.mp hlater
          rfl
    rw [← hname]
    constructor
    · rw [hname, strip_strip]
    · exact ⟨_, List.mem_cons_self, rfl⟩

theorem founded_aliasClaims (entry : Scalar × Yaml) :
    ∀ claim ∈ aliasClaims interpreter entry,
      Founded interpreter (aliasClaims interpreter entry) claim := by
  intro claim hmem
  have hname : claim.name = strip (entry.2.text interpreter) := by
    rw [aliasClaims, List.mem_cons, List.mem_singleton] at hmem
    cases hmem with
    | inl htakes => rw [htakes, Claim.name]
    | inr hoffers => rw [hoffers, Claim.name]
  constructor
  · rw [hname, strip_strip]
  · refine ⟨_, List.mem_cons_of_mem _ (List.mem_singleton_self _), ?_⟩
    rw [Claim.key, hname]

theorem founded_keywordClaims (entry : Scalar × Yaml) :
    ∀ claim ∈ keywordClaims interpreter entry,
      Founded interpreter (keywordClaims interpreter entry) claim := by
  intro claim hmem
  have hclaim := List.mem_singleton.mp hmem
  have hname : claim.name = strip entry.1.text := by rw [hclaim, Claim.name]
  constructor
  · rw [hname, strip_strip]
  · exact ⟨claim, hmem, by rw [hclaim, Claim.key, Claim.name]⟩

theorem founded_flatMap {roundClaims : Scalar × Yaml → List Claim} {entries : Mapping}
    (hround : ∀ entry, ∀ claim ∈ roundClaims entry,
      Founded interpreter (roundClaims entry) claim) :
    ∀ claim ∈ entries.flatMap roundClaims,
      Founded interpreter (entries.flatMap roundClaims) claim := by
  intro claim hmem
  obtain ⟨entry, hentry, hclaim⟩ := List.mem_flatMap.mp hmem
  apply (hround entry claim hclaim).mono
  intro other hother
  exact List.mem_flatMap.mpr ⟨entry, hentry, hother⟩

theorem founded_claims (payload : Mapping) :
    ∀ claim ∈ claims interpreter payload,
      Founded interpreter (claims interpreter payload) claim := by
  intro claim hmem
  rw [claims] at hmem ⊢
  rw [List.mem_append, List.mem_append] at hmem
  rcases hmem with (hdefinition | halias) | hkeyword
  · apply (founded_flatMap founded_definitionClaims claim hdefinition).mono
    exact fun _ hother => List.mem_append_left _ (List.mem_append_left _ hother)
  · apply (founded_flatMap founded_aliasClaims claim halias).mono
    exact fun _ hother => List.mem_append_left _ (List.mem_append_right _ hother)
  · apply (founded_flatMap founded_keywordClaims claim hkeyword).mono
    exact fun _ hother => List.mem_append_right _ hother

theorem not_isSpace_joinWords (inRun : Bool) (text : List Char) :
    ∀ c ∈ joinWords inRun text, isSpace c = false := by
  induction text generalizing inRun with
  | nil => exact fun _ hmem => absurd hmem List.not_mem_nil
  | cons c rest ih =>
      rw [joinWords]
      split_ifs with hmark hrun
      · exact ih true
      · rw [List.forall_mem_cons]
        exact ⟨by decide, ih true⟩
      · rw [List.forall_mem_cons]
        rw [Bool.or_eq_true, not_or] at hmark
        exact ⟨Bool.not_eq_true _ ▸ hmark.1, ih false⟩

/-- A slug has no spaces. -/
theorem strip_key (value : String) : strip (key interpreter value) = key interpreter value := by
  have hspaces : ∀ c ∈ (key interpreter value).toList, isSpace c = false := by
    intro c hmem
    rw [key, String.toList_ofList] at hmem
    have hkept := (List.dropWhile_suffix _).mem ((List.rdropWhile_prefix _ _).mem hmem)
    exact not_isSpace_joinWords false _ c (List.mem_filter.mp hkept).1
  apply strip_eq_self
  · rw [List.dropWhile_eq_self_iff]
    intro hlength
    rw [hspaces _ (List.getElem_mem hlength)]
    exact Bool.false_ne_true
  · rw [List.rdropWhile_eq_self_iff]
    intro hne
    rw [hspaces _ (List.getLast_mem hne)]
    exact Bool.false_ne_true

end Index

/-! ## Normalization -/

/-- The name in force for a key; an empty one is none. -/
def inForce (claims : List Claim) (key : String) : Option String :=
  (winner claims key).filter (· ≠ "")

theorem inForce_eq_some {claims : List Claim} {key name : String} :
    inForce claims key = some name ↔ winner claims key = some name ∧ name ≠ "" := by
  rw [inForce, Option.filter_eq_some_iff, decide_eq_true_iff]

/-- No name in force is renamed through its own key, and a slug that stays is its own slug. -/
structure Unambiguous (interpreter : Interpreter) (claims : List Claim) : Prop where
  /-- The name in force for a tag prevails on its own key, or an empty name does and the name is
  its own slug. -/
  names : ∀ tag name, strip tag ≠ "" →
    inForce claims (key interpreter (strip tag)) = some name →
      winner claims (key interpreter name) = some name ∨
        winner claims (key interpreter name) = some "" ∧ key interpreter name = name
  /-- The slug of a tag without a name is its own slug, or the name that prevails on it. -/
  slugs : ∀ tag, strip tag ≠ "" → key interpreter (strip tag) ≠ "" →
    inForce claims (key interpreter (strip tag)) = none →
      key interpreter (key interpreter (strip tag)) = key interpreter (strip tag) ∨
        winner claims (key interpreter (key interpreter (strip tag))) =
          some (key interpreter (strip tag))

section Normalize

variable {interpreter : Interpreter} {payload : Mapping} {indexes : Indexes}
  (hbuild : buildIndexes interpreter payload = .ok indexes)

include hbuild

theorem normalizeTag_eq (tag : String) :
    normalizeTag interpreter indexes tag =
      if strip tag = "" then ""
      else
        (inForce (claims interpreter payload) (key interpreter (strip tag))).getD
          (key interpreter (strip tag)) := by
  rw [normalizeTag, lookup_aliases hbuild, inForce]
  split_ifs
  · rfl
  · cases winner (claims interpreter payload) (key interpreter (strip tag)) with
    | none => rfl
    | some mapped =>
        rw [Option.filter_some]
        by_cases hmapped : mapped = ""
        · rw [hmapped]
          rfl
        · rw [if_pos (decide_eq_true hmapped)]
          exact if_neg hmapped

/-- A stripped text stays exactly if it is in force for its key, or nothing is and it is its own
slug. -/
theorem normalizeTag_eq_self_iff {text : String} (hstrip : strip text = text) (hne : text ≠ "") :
    normalizeTag interpreter indexes text = text ↔
      inForce (claims interpreter payload) (key interpreter text) = some text ∨
        inForce (claims interpreter payload) (key interpreter text) = none ∧
          key interpreter text = text := by
  rw [normalizeTag_eq hbuild, hstrip, if_neg hne]
  cases inForce (claims interpreter payload) (key interpreter text) with
  | none =>
      rw [Option.getD_none]
      exact ⟨fun hkey => .inr ⟨rfl, hkey⟩, fun h => h.elim (fun hnone => by cases hnone) And.right⟩
  | some name =>
      rw [Option.getD_some]
      constructor
      · exact fun hname => .inl (congrArg some hname)
      · exact fun h => h.elim Option.some_inj.mp fun hnone => by cases hnone.1

theorem normalizeTag_name_iff {claimed name : String}
    (hforce : inForce (claims interpreter payload) claimed = some name) :
    normalizeTag interpreter indexes name = name ↔
      winner (claims interpreter payload) (key interpreter name) = some name ∨
        winner (claims interpreter payload) (key interpreter name) = some "" ∧
          key interpreter name = name := by
  obtain ⟨hwinner, hne⟩ := inForce_eq_some.mp hforce
  obtain ⟨claim, hclaim, -, hname⟩ := winner_mem hwinner
  have hfounded := founded_claims payload claim hclaim
  obtain ⟨own, hown, hkey⟩ := hfounded.own
  have hclaimed := winner_ne_none hown
  rw [hkey, hname] at hclaimed
  rw [normalizeTag_eq_self_iff hbuild (hname ▸ hfounded.stripped) hne, inForce_eq_some,
    and_iff_left hne]
  apply or_congr_right
  apply and_congr_left'
  rw [inForce, Option.filter_eq_none_iff]
  constructor
  · intro hnone
    obtain ⟨found, hfound⟩ := Option.ne_none_iff_exists'.mp hclaimed
    have hempty := hnone found hfound
    rw [decide_eq_true_iff, not_not] at hempty
    rw [hfound, hempty]
  · intro hempty found hfound
    rw [hempty] at hfound
    rw [← Option.some_inj.mp hfound]
    decide

theorem normalizeTag_slug_iff {value : String}
    (hne : key interpreter value ≠ "")
    (hforce : inForce (claims interpreter payload) (key interpreter value) = none) :
    normalizeTag interpreter indexes (key interpreter value) = key interpreter value ↔
      key interpreter (key interpreter value) = key interpreter value ∨
        winner (claims interpreter payload) (key interpreter (key interpreter value)) =
          some (key interpreter value) := by
  rw [normalizeTag_eq_self_iff hbuild (strip_key value) hne, inForce_eq_some, and_iff_left hne,
    or_comm]
  apply or_congr_left
  constructor
  · exact And.right
  · intro hfixed
    exact ⟨hfixed.symm ▸ hforce, hfixed⟩

/-- What normalization gives is fixed exactly if the claims are unambiguous. -/
theorem normalizeTag_normalizeTag_iff :
    (∀ tag, normalizeTag interpreter indexes (normalizeTag interpreter indexes tag) =
        normalizeTag interpreter indexes tag) ↔
      Unambiguous interpreter (claims interpreter payload) := by
  have htag : ∀ tag name, strip tag ≠ "" →
      inForce (claims interpreter payload) (key interpreter (strip tag)) = some name →
      normalizeTag interpreter indexes tag = name := by
    intro tag name htag hforce
    rw [normalizeTag_eq hbuild, if_neg htag, hforce, Option.getD_some]
  have hslug : ∀ tag, strip tag ≠ "" →
      inForce (claims interpreter payload) (key interpreter (strip tag)) = none →
      normalizeTag interpreter indexes tag = key interpreter (strip tag) := by
    intro tag htag hforce
    rw [normalizeTag_eq hbuild, if_neg htag, hforce, Option.getD_none]
  have hempty : normalizeTag interpreter indexes "" = "" := by
    rw [normalizeTag_eq hbuild, if_pos (by decide)]
  constructor
  · intro hfixed
    constructor
    · intro tag name hne hforce
      have hname := hfixed tag
      rw [htag tag name hne hforce] at hname
      exact (normalizeTag_name_iff hbuild hforce).mp hname
    · intro tag hne hkey hforce
      have hname := hfixed tag
      rw [hslug tag hne hforce] at hname
      exact (normalizeTag_slug_iff hbuild hkey hforce).mp hname
  · intro hunambiguous tag
    by_cases hne : strip tag = ""
    · rw [normalizeTag_eq hbuild tag, if_pos hne, hempty]
    · cases hforce : inForce (claims interpreter payload) (key interpreter (strip tag)) with
      | some name =>
          rw [htag tag name hne hforce]
          exact (normalizeTag_name_iff hbuild hforce).mpr
            (hunambiguous.names tag name hne hforce)
      | none =>
          rw [hslug tag hne hforce]
          by_cases hkey : key interpreter (strip tag) = ""
          · rw [hkey, hempty]
          · exact (normalizeTag_slug_iff hbuild hkey hforce).mpr
              (hunambiguous.slugs tag hne hkey hforce)

end Normalize

/-! ### Lists of tags -/

section Tags

variable {interpreter : Interpreter} {indexes : Indexes}

theorem normalizeTags_append (tags : List String) (tag : String) :
    normalizeTags interpreter indexes (tags ++ [tag]) =
      if normalizeTag interpreter indexes tag ≠ "" ∧
          normalizeTag interpreter indexes tag ∉ normalizeTags interpreter indexes tags then
        normalizeTags interpreter indexes tags ++ [normalizeTag interpreter indexes tag]
      else normalizeTags interpreter indexes tags := by
  simp only [normalizeTags, List.foldl_append, List.foldl_cons, List.foldl_nil]
  congr

theorem normalizeTags_singleton (tag : String) :
    normalizeTags interpreter indexes [tag] =
      if normalizeTag interpreter indexes tag ≠ "" then [normalizeTag interpreter indexes tag]
      else [] := by
  rw [← List.nil_append [tag], normalizeTags_append]
  exact if_congr (and_iff_left List.not_mem_nil) rfl rfl

/-- The normalized tags are different, not empty and each the tag of one that was given. -/
theorem normalizeTags_spec (tags : List String) :
    (normalizeTags interpreter indexes tags).Nodup ∧
      ∀ tag ∈ normalizeTags interpreter indexes tags,
        tag ≠ "" ∧ ∃ given ∈ tags, normalizeTag interpreter indexes given = tag := by
  induction tags using List.reverseRecOn with
  | nil => exact ⟨List.nodup_nil, fun _ hmem => absurd hmem List.not_mem_nil⟩
  | append_singleton tags last ih =>
      have hearlier : ∀ tag ∈ normalizeTags interpreter indexes tags,
          tag ≠ "" ∧ ∃ given ∈ tags ++ [last], normalizeTag interpreter indexes given = tag := by
        intro tag hmem
        obtain ⟨hne, given, hgiven, hsame⟩ := ih.2 tag hmem
        exact ⟨hne, given, List.mem_append_left _ hgiven, hsame⟩
      rw [normalizeTags_append]
      split_ifs with hnew
      · constructor
        · rw [List.nodup_append']
          refine ⟨ih.1, List.nodup_singleton _, ?_⟩
          rw [List.disjoint_singleton]
          exact hnew.2
        · intro tag hmem
          cases List.mem_append.mp hmem with
          | inl hold => exact hearlier tag hold
          | inr hlast =>
              obtain rfl := List.mem_singleton.mp hlast
              exact ⟨hnew.1, last, List.mem_append_right _ (List.mem_singleton_self _), rfl⟩
      · exact ⟨ih.1, hearlier⟩

/-- Different tags that are not empty and stay are normalized. -/
theorem normalizeTags_eq_self {tags : List String} (hnodup : tags.Nodup)
    (hstay : ∀ tag ∈ tags, tag ≠ "" ∧ normalizeTag interpreter indexes tag = tag) :
    normalizeTags interpreter indexes tags = tags := by
  induction tags using List.reverseRecOn with
  | nil => rfl
  | append_singleton tags last ih =>
      rw [List.nodup_append'] at hnodup
      have hearlier := ih hnodup.1 fun tag hmem => hstay tag (List.mem_append_left _ hmem)
      obtain ⟨hne, hlast⟩ := hstay last (List.mem_append_right _ (List.mem_singleton_self _))
      have hnew : last ∉ tags := List.disjoint_singleton.mp hnodup.2.2
      rw [normalizeTags_append, hearlier, hlast, if_pos ⟨hne, hnew⟩]

theorem normalizeTags_normalizeTags_iff (hempty : normalizeTag interpreter indexes "" = "") :
    (∀ tags, normalizeTags interpreter indexes (normalizeTags interpreter indexes tags) =
        normalizeTags interpreter indexes tags) ↔
      ∀ tag, normalizeTag interpreter indexes (normalizeTag interpreter indexes tag) =
        normalizeTag interpreter indexes tag := by
  constructor
  · intro hidempotent tag
    by_cases hne : normalizeTag interpreter indexes tag = ""
    · rw [hne, hempty]
    · have htag := hidempotent [tag]
      rw [normalizeTags_singleton, if_pos hne, normalizeTags_singleton] at htag
      split_ifs at htag
      exact List.singleton_inj.mp htag
  · intro hfixed tags
    obtain ⟨hnodup, hspec⟩ := normalizeTags_spec tags
    apply normalizeTags_eq_self hnodup
    intro tag hmem
    obtain ⟨hne, given, -, rfl⟩ := hspec tag hmem
    exact ⟨hne, hfixed given⟩

end Tags

/-- Normalization is idempotent exactly if the claims of the mapping are unambiguous. -/
theorem normalizeTags_idempotent_iff {interpreter : Interpreter} {builtIn : Option Mapping}
    {custom : Mapping} {manager : TagManager}
    (hload : TagManager.load interpreter builtIn custom = .ok manager) :
    (∀ tags, normalizeTags interpreter manager.indexes
          (normalizeTags interpreter manager.indexes tags) =
        normalizeTags interpreter manager.indexes tags) ↔
      Unambiguous interpreter (claims interpreter manager.mapping) := by
  rw [TagManager.load, bind_eq_ok] at hload
  obtain ⟨mapping, -, hload⟩ := hload
  obtain ⟨indexes, hbuild, hload⟩ := bind_eq_ok.mp hload
  cases hload
  have hempty : normalizeTag interpreter indexes "" = "" := by
    rw [normalizeTag_eq hbuild, if_pos (by decide)]
  rw [normalizeTags_normalizeTags_iff hempty]
  exact normalizeTag_normalizeTag_iff hbuild

/-- Lower-case ASCII. -/
def ascii : Interpreter where
  nfkc := id
  casefold := id
  isWord c := c.isAlphanum || c = '_'
  repr _ := ""

/-- A definition of the built-in mapping. -/
def builtInMapping : Mapping :=
  [(.str "tags",
    .map
      [(.str "dynamic-programming",
        .map [(.str "aliases", .list [.scalar (.str "dp")])])])]

/-- An alias that renames the definition to its own alias. -/
def renamed : Mapping :=
  [(.str "aliases", .map [(.str "dynamic-programming", .scalar (.str "dp"))])]

theorem normalizeTags_idempotent_iff_renamed :
    ∃ manager, TagManager.load ascii (some builtInMapping) renamed = .ok manager ∧
      ((∀ tags, normalizeTags ascii manager.indexes (normalizeTags ascii manager.indexes tags) =
          normalizeTags ascii manager.indexes tags) ↔
        Unambiguous ascii (claims ascii manager.mapping)) := by
  obtain ⟨manager, hload⟩ :
      ∃ manager, TagManager.load ascii (some builtInMapping) renamed = .ok manager := ⟨_, rfl⟩
  exact ⟨manager, hload, normalizeTags_idempotent_iff hload⟩

theorem normalizeTags_renamed :
    ∃ manager, TagManager.load ascii (some builtInMapping) renamed = .ok manager ∧
      ¬∀ tags, normalizeTags ascii manager.indexes (normalizeTags ascii manager.indexes tags) =
        normalizeTags ascii manager.indexes tags := by
  refine ⟨_, rfl, ?_⟩
  intro hidempotent
  exact absurd (hidempotent ["dp"]) (by decide +kernel)

end AlgorithmHarness.Tags
