import AlgorithmHarness.Core.Eviction
import AlgorithmHarness.Core.Json
import AlgorithmHarness.Core.KeyedRows
import Mathlib.Algebra.Field.Rat
import Mathlib.Algebra.Order.Ring.Rat
import Mathlib.Data.Nat.Cast.Order.Ring

/-!
# The cache of responses

`LLMResponseCache` keeps each response in a file of its own and the times of
access in a log.  The files of a directory have different names.  How long the
text of a file is and what pydantic makes of values of other types than the
cache writes are left open; files are written without failures, but a file
may resist its removal.
-/

namespace AlgorithmHarness.LlmCache

open Eviction (total evicted)

abbrev Members := List (String × Json)

structure TokenUsage where
  promptTokens : ℕ
  completionTokens : ℕ
  totalTokens : ℕ
  reasoningTokens : ℕ

structure LLMResponse where
  text : String
  usage : TokenUsage
  model : String
  finishReason : Option String
  pricingMetadata : Option Members
  usageMissing : Bool
  reasoningText : Option String
  effectiveParams : Members

/-! ## The content of a file -/

def optional (value : Option String) : Json := value.elim .null .str

def usageData (usage : TokenUsage) : Members :=
  [("prompt_tokens", .num usage.promptTokens),
    ("completion_tokens", .num usage.completionTokens),
    ("total_tokens", .num usage.totalTokens),
    ("reasoning_tokens", .num usage.reasoningTokens)]

/-- `cache_data` -/
def cacheData (response : LLMResponse) (timestamp : ℚ) : Members :=
  [("response_text", .str response.text),
    ("token_usage", .obj (usageData response.usage)),
    ("timestamp", .num timestamp),
    ("model", .str response.model),
    ("finish_reason", optional response.finishReason),
    ("pricing_metadata", response.pricingMetadata.elim .null .obj),
    ("usage_missing", .bool response.usageMissing),
    ("reasoning_text", optional response.reasoningText),
    ("effective_params", .obj response.effectiveParams)]

def natural : Json → Option ℕ
  | .num value => if value.den = 1 ∧ 0 ≤ value.num then some value.num.toNat else none
  | _ => none

def string : Json → Option String
  | .str value => some value
  | _ => none

def optionalString : Json → Option (Option String)
  | .null => some none
  | .str value => some (some value)
  | _ => none

def object : Json → Option Members
  | .obj members => some members
  | _ => none

def optionalObject : Json → Option (Option Members)
  | .null => some none
  | .obj members => some (some members)
  | _ => none

def boolean : Json → Option Bool
  | .bool value => some value
  | _ => none

/-- `data.get(key, default)` -/
def field (data : Members) (key : String) (default : Json) : Json :=
  (data.lookup key).getD default

def tokenUsage (usage : Members) : Option TokenUsage := do
  let promptTokens ← natural (field usage "prompt_tokens" .null)
  let completionTokens ← natural (field usage "completion_tokens" .null)
  let totalTokens ← natural (field usage "total_tokens" .null)
  let reasoningTokens ← natural (field usage "reasoning_tokens" (.num 0))
  return { promptTokens, completionTokens, totalTokens, reasoningTokens }

/-- A response from values of the types its fields have. -/
def typedResponse (data : Members) : Option LLMResponse := do
  let text ← string (field data "response_text" .null)
  let usage ← (object (field data "token_usage" .null)).bind tokenUsage
  let model ← string (field data "model" .null)
  let finishReason ← optionalString (field data "finish_reason" .null)
  let pricingMetadata ← optionalObject (field data "pricing_metadata" .null)
  let usageMissing ← boolean (field data "usage_missing" (.bool false))
  let reasoningText ← optionalString (field data "reasoning_text" .null)
  let effectiveParams ← object (field data "effective_params" (.obj []))
  return {
    text, usage, model, finishReason, pricingMetadata, usageMissing, reasoningText,
    effectiveParams }

/-- What a call of `get` ends with. -/
inductive Answer where
  | returned (response : Option LLMResponse)
  | raised

/-- What the cache leaves to its surroundings. -/
structure Surroundings where
  fileSize : Members → ℕ
  /-- The response pydantic makes of values of other types, or none. -/
  coerce : Members → Option LLMResponse

/-- The new `LLMResponse`; a missing key is a `KeyError`, which counts as a miss. -/
def Surroundings.readResponse (surroundings : Surroundings) (data : Members) : Answer :=
  if ["response_text", "token_usage", "model"].all fun key => (data.lookup key).isSome then
    match (typedResponse data).or (surroundings.coerce data) with
    | some response => .returned (some response)
    | none => .raised
  else .returned none

/-! ## The directory -/

structure CacheFile where
  key : String
  size : ℕ
  /-- What `json.load` gives, unless it raises. -/
  content : Option Json

/-- The directory of a cache. -/
structure Cache where
  files : List CacheFile
  accessLog : AList fun _ : String => ℚ
  unique : (files.map CacheFile.key).Nodup

structure Settings where
  enabled : Bool
  ttlSeconds : ℚ
  maxSizeBytes : ℚ

structure Statistics where
  hits : ℕ := 0
  misses : ℕ := 0
  apiCallsSaved : ℕ := 0

def CacheFile.bytes (file : CacheFile) : ℚ := file.size

/-- `access_log.get(cache_key, 0)` -/
def Cache.accessTime (cache : Cache) (file : CacheFile) : ℚ :=
  (cache.accessLog.lookup file.key).getD 0

def Cache.find (cache : Cache) (key : String) : Option CacheFile :=
  KeyedRows.fetch CacheFile.key key cache.files

/-- `_update_access_time` -/
def Cache.updateAccessTime (cache : Cache) (key : String) (now : ℚ) : Cache :=
  { cache with accessLog := cache.accessLog.insert key now }

/-- What the loop of `_enforce_size_limit` works on. -/
structure Evicting where
  currentSize : ℚ
  files : List CacheFile
  accessLog : AList fun _ : String => ℚ

/-- The loop; a file that resists is passed over. -/
def evictLoop (maxSizeBytes : ℚ) (removable : CacheFile → Bool) :
    List CacheFile → Evicting → Evicting
  | [], state => state
  | file :: rest, state =>
      if state.currentSize ≤ maxSizeBytes then state
      else if removable file then
        evictLoop maxSizeBytes removable rest
          { currentSize := state.currentSize - file.bytes
            files := state.files.filter fun other => other.key ≠ file.key
            accessLog := state.accessLog.erase file.key }
      else evictLoop maxSizeBytes removable rest state

theorem evictLoop_files (maxSizeBytes : ℚ) (removable : CacheFile → Bool)
    (order : List CacheFile) (state : Evicting) :
    (evictLoop maxSizeBytes removable order state).files =
      state.files.filter fun file =>
        file.key ∉ (evicted CacheFile.bytes removable maxSizeBytes state.currentSize order).map
          CacheFile.key := by
  induction order generalizing state with
  | nil =>
      rw [evictLoop, evicted, List.map_nil]
      exact (List.filter_eq_self.mpr fun file _ => decide_eq_true List.not_mem_nil).symm
  | cons file rest ih =>
      rw [evictLoop, evicted]
      split_ifs
      · exact (List.filter_eq_self.mpr fun file _ => decide_eq_true List.not_mem_nil).symm
      · rw [ih, List.filter_filter]
        apply List.filter_congr
        intro other _
        rw [← Bool.decide_and]
        apply decide_eq_decide.mpr
        rw [List.map_cons, List.mem_cons, not_or, and_comm]
      · exact ih state

/-- `_enforce_size_limit` -/
def Cache.enforceSizeLimit (cache : Cache) (maxSizeBytes : ℚ) (removable : CacheFile → Bool) :
    Cache :=
  if total CacheFile.bytes cache.files ≤ maxSizeBytes then cache
  else
    let order := cache.files.mergeSort fun older newer =>
      cache.accessTime older ≤ cache.accessTime newer
    let state := evictLoop maxSizeBytes removable order
      { currentSize := total CacheFile.bytes cache.files
        files := cache.files
        accessLog := cache.accessLog }
    { files := state.files
      accessLog := state.accessLog
      unique := by
        rw [evictLoop_files]
        exact cache.unique.sublist (List.filter_sublist.map _) }

/-- `set`, with its two readings of the clock. -/
def Cache.set (surroundings : Surroundings) (settings : Settings) (cache : Cache) (key : String)
    (response : LLMResponse) (timestamp accessedAt : ℚ) (removable : CacheFile → Bool) : Cache :=
  if settings.enabled then
    let data := cacheData response timestamp
    let written : Cache :=
      { cache with
        files := KeyedRows.put CacheFile.key
          { key, size := surroundings.fileSize data, content := some (.obj data) } cache.files
        unique := KeyedRows.nodup_put cache.unique _ }
    (written.updateAccessTime key accessedAt).enforceSizeLimit settings.maxSizeBytes removable
  else cache

/-- `_is_expired`; only a dictionary whose time is a number can be asked. -/
def isExpired (settings : Settings) (data : Members) (now : ℚ) : Option Bool :=
  match (data.lookup "timestamp").getD (.num 0) with
  | .num timestamp => some (settings.ttlSeconds ≤ now - timestamp)
  | .bool timestamp => some (settings.ttlSeconds ≤ now - if timestamp then 1 else 0)
  | _ => none

/-- `get`, with its two readings of the clock. -/
def Cache.get (surroundings : Surroundings) (settings : Settings) (cache : Cache)
    (statistics : Statistics) (key : String) (now accessedAt : ℚ) :
    Answer × Cache × Statistics :=
  let missed := { statistics with misses := statistics.misses + 1 }
  if settings.enabled then
    match cache.find key with
    | none | some { content := none, .. } => (.returned none, cache, missed)
    | some { content := some (.obj data), .. } =>
        match isExpired settings data now with
        | none => (.raised, cache, statistics)
        | some true => (.returned none, cache, missed)
        | some false =>
            let accessed := cache.updateAccessTime key accessedAt
            match surroundings.readResponse data with
            | .returned (some response) =>
                (.returned (some response), accessed,
                  { statistics with
                    hits := statistics.hits + 1
                    apiCallsSaved := statistics.apiCallsSaved + 1 })
            | .returned none => (.returned none, accessed, missed)
            | .raised => (.raised, accessed, statistics)
    | some { content := some _, .. } => (.raised, cache, statistics)
  else (.returned none, cache, statistics)

/-! ## Eviction -/

/-- What an eviction leaves. -/
structure Evicts (maxSizeBytes : ℚ) (removable : CacheFile → Bool) (cache after : Cache) :
    Prop where
  remain : after.files.Sublist cache.files
  /-- What remains fits if any choice of removals does. -/
  sufficient : ∀ kept : List CacheFile, kept.Sublist cache.files →
    (∀ file ∈ cache.files, removable file = false → file ∈ kept) →
      total CacheFile.bytes kept ≤ maxSizeBytes →
        total CacheFile.bytes after.files ≤ maxSizeBytes
  /-- No file is removed that was used more recently than one that stays, unless that resists. -/
  leastRecent : ∀ removed ∈ cache.files, removed ∉ after.files → ∀ kept ∈ after.files,
    removable kept = true → cache.accessTime removed ≤ cache.accessTime kept
  /-- Without the removal of the most recently used one it would not fit. -/
  needed : after.files ≠ cache.files → ∃ last ∈ cache.files, last ∉ after.files ∧
    (∀ removed ∈ cache.files, removed ∉ after.files →
      cache.accessTime removed ≤ cache.accessTime last) ∧
    maxSizeBytes < total CacheFile.bytes after.files + last.bytes
  /-- Files that were all used more recently than the others stay if they fit. -/
  maximal : ∀ kept : List CacheFile, kept.Sublist cache.files →
    (∀ file ∈ cache.files, removable file = false → file ∈ kept) →
      (∀ removed ∈ cache.files, removed ∉ kept → ∀ newer ∈ kept, removable newer = true →
        cache.accessTime removed < cache.accessTime newer) →
        total CacheFile.bytes kept ≤ maxSizeBytes → kept ⊆ after.files

section Enforce

variable {cache : Cache} {maxSizeBytes : ℚ} {removable : CacheFile → Bool}

/-- The files in the order in which they are removed. -/
def Cache.evictionOrder (cache : Cache) : List CacheFile :=
  cache.files.mergeSort fun older newer => cache.accessTime older ≤ cache.accessTime newer

/-- The files an eviction removes. -/
def Cache.evictedFiles (cache : Cache) (maxSizeBytes : ℚ) (removable : CacheFile → Bool) :
    List CacheFile :=
  evicted CacheFile.bytes removable maxSizeBytes (total CacheFile.bytes cache.files)
    cache.evictionOrder

theorem evictionOrder_perm (cache : Cache) : cache.evictionOrder.Perm cache.files :=
  List.mergeSort_perm _ _

theorem evictionOrder_sorted (cache : Cache) :
    cache.evictionOrder.Pairwise fun older newer =>
      cache.accessTime older ≤ cache.accessTime newer := by
  have hsorted : cache.evictionOrder.Pairwise fun older newer =>
      decide (cache.accessTime older ≤ cache.accessTime newer) = true := by
    apply List.pairwise_mergeSort
    · intro first second third hfirst hsecond
      exact decide_eq_true ((of_decide_eq_true hfirst).trans (of_decide_eq_true hsecond))
    · intro first second
      rw [Bool.or_eq_true, decide_eq_true_iff, decide_eq_true_iff]
      exact le_total _ _
  exact hsorted.imp of_decide_eq_true

theorem mem_files_of_evicted {file : CacheFile}
    (hevicted : file ∈ cache.evictedFiles maxSizeBytes removable) : file ∈ cache.files :=
  (evictionOrder_perm cache).mem_iff.mp ((Eviction.evicted_sublist _ _).mem hevicted)

/-- An eviction keeps the files it does not remove. -/
theorem files_enforceSizeLimit (hexceeds : ¬total CacheFile.bytes cache.files ≤ maxSizeBytes) :
    (cache.enforceSizeLimit maxSizeBytes removable).files =
      cache.files.filter fun file =>
        file.key ∉ (cache.evictedFiles maxSizeBytes removable).map CacheFile.key := by
  rw [Cache.enforceSizeLimit, if_neg hexceeds]
  exact evictLoop_files maxSizeBytes removable _ _

theorem remaining_sublist (hexceeds : ¬total CacheFile.bytes cache.files ≤ maxSizeBytes) :
    (cache.enforceSizeLimit maxSizeBytes removable).files.Sublist cache.files := by
  rw [files_enforceSizeLimit hexceeds]
  exact List.filter_sublist

/-- Files are told apart by their names. -/
theorem key_mem_evictedFiles {file : CacheFile} (hfile : file ∈ cache.files) :
    file.key ∈ (cache.evictedFiles maxSizeBytes removable).map CacheFile.key ↔
      file ∈ cache.evictedFiles maxSizeBytes removable := by
  constructor
  · intro hkey
    obtain ⟨other, hother, hsame⟩ := List.mem_map.mp hkey
    have heq := List.inj_on_of_nodup_map cache.unique (mem_files_of_evicted hother) hfile hsame
    exact heq ▸ hother
  · exact fun hmem => List.mem_map_of_mem hmem

theorem mem_enforceSizeLimit (hexceeds : ¬total CacheFile.bytes cache.files ≤ maxSizeBytes)
    {file : CacheFile} (hfile : file ∈ cache.files) :
    file ∈ (cache.enforceSizeLimit maxSizeBytes removable).files ↔
      file ∉ cache.evictedFiles maxSizeBytes removable := by
  rw [files_enforceSizeLimit hexceeds, List.mem_filter, decide_eq_true_iff, and_iff_right hfile]
  exact not_congr (key_mem_evictedFiles hfile)

theorem nodup_files (cache : Cache) : cache.files.Nodup := cache.unique.of_map

theorem total_enforceSizeLimit (hexceeds : ¬total CacheFile.bytes cache.files ≤ maxSizeBytes) :
    total CacheFile.bytes (cache.enforceSizeLimit maxSizeBytes removable).files =
      total CacheFile.bytes cache.files -
        total CacheFile.bytes (cache.evictedFiles maxSizeBytes removable) := by
  have hremoved : (cache.evictedFiles maxSizeBytes removable).Nodup :=
    ((evictionOrder_perm cache).nodup_iff.mpr (nodup_files cache)).sublist
      (Eviction.evicted_sublist _ _)
  have hsplit := Eviction.total_filter_add CacheFile.bytes
    (fun file => file.key ∉ (cache.evictedFiles maxSizeBytes removable).map CacheFile.key)
    cache.files
  rw [← files_enforceSizeLimit hexceeds] at hsplit
  have hperm : (cache.files.filter fun file => !decide
      (file.key ∉ (cache.evictedFiles maxSizeBytes removable).map CacheFile.key)).Perm
        (cache.evictedFiles maxSizeBytes removable) := by
    rw [List.perm_ext_iff_of_nodup ((nodup_files cache).filter _) hremoved]
    intro file
    rw [List.mem_filter, Bool.not_eq_true', decide_eq_false_iff_not, not_not]
    constructor
    · exact fun hmem => (key_mem_evictedFiles hmem.1).mp hmem.2
    · intro hevicted
      have hfile := mem_files_of_evicted hevicted
      exact ⟨hfile, (key_mem_evictedFiles hfile).mpr hevicted⟩
  have htotal : total CacheFile.bytes (cache.files.filter fun file => !decide
      (file.key ∉ (cache.evictedFiles maxSizeBytes removable).map CacheFile.key)) =
        total CacheFile.bytes (cache.evictedFiles maxSizeBytes removable) :=
    (hperm.map _).sum_eq
  rw [← hsplit, htotal, add_sub_cancel_right]

/-- What is left is what resists, or it fits. -/
theorem total_enforceSizeLimit_le
    (hexceeds : ¬total CacheFile.bytes cache.files ≤ maxSizeBytes) {kept : List CacheFile}
    (hresists : ∀ file ∈ cache.files, removable file = false → file ∈ kept)
    (hfits : total CacheFile.bytes kept ≤ maxSizeBytes) :
    total CacheFile.bytes (cache.enforceSizeLimit maxSizeBytes removable).files ≤
      maxSizeBytes := by
  have hsizes : ∀ size ∈ kept.map CacheFile.bytes, (0 : ℚ) ≤ size := by
    intro size hsize
    obtain ⟨file, -, rfl⟩ := List.mem_map.mp hsize
    exact Nat.cast_nonneg file.size
  cases Eviction.evicted_fits (total CacheFile.bytes cache.files) cache.evictionOrder with
  | inl hdone =>
      rw [total_enforceSizeLimit hexceeds]
      exact hdone
  | inr hall =>
      have hsubset : (cache.enforceSizeLimit maxSizeBytes removable).files ⊆ kept := by
        intro file hmem
        have hfile := (remaining_sublist hexceeds).mem hmem
        rw [mem_enforceSizeLimit hexceeds hfile, Cache.evictedFiles, hall, List.mem_filter,
          (evictionOrder_perm cache).mem_iff, and_iff_right hfile] at hmem
        exact hresists file hfile (Bool.not_eq_true _ ▸ hmem)
      obtain ⟨remaining, hperm, hsub⟩ := List.subperm_of_subset
        ((nodup_files cache).sublist (remaining_sublist hexceeds)) hsubset
      calc
        total CacheFile.bytes (cache.enforceSizeLimit maxSizeBytes removable).files
          = total CacheFile.bytes remaining := ((hperm.map CacheFile.bytes).sum_eq).symm
        _ ≤ total CacheFile.bytes kept := (hsub.map CacheFile.bytes).sum_le_sum hsizes
        _ ≤ maxSizeBytes := hfits

theorem enforceSizeLimit_evicts (cache : Cache) (maxSizeBytes : ℚ)
    (removable : CacheFile → Bool) :
    Evicts maxSizeBytes removable cache (cache.enforceSizeLimit maxSizeBytes removable) := by
  by_cases hfits : total CacheFile.bytes cache.files ≤ maxSizeBytes
  · have hsame : cache.enforceSizeLimit maxSizeBytes removable = cache := by
      rw [Cache.enforceSizeLimit, if_pos hfits]
    rw [hsame]
    constructor
    · exact List.Sublist.refl _
    · exact fun _ _ _ _ => hfits
    · exact fun removed hremoved hgone => absurd hremoved hgone
    · exact fun hchanged => absurd rfl hchanged
    · exact fun kept hkept _ _ _ => hkept.subset
  · constructor
    · exact remaining_sublist hfits
    · exact fun kept _ hresists hkeptFits => total_enforceSizeLimit_le hfits hresists hkeptFits
    · intro removed hremoved hgone kept hkept hremovable
      rw [mem_enforceSizeLimit hfits hremoved, not_not] at hgone
      have hkeptFile := (remaining_sublist hfits).mem hkept
      rw [mem_enforceSizeLimit hfits hkeptFile] at hkept
      exact Eviction.evicted_oldest (evictionOrder_sorted cache) hgone
        ((evictionOrder_perm cache).mem_iff.mpr hkeptFile) hremovable hkept
    · intro hchanged
      have hneeded : cache.evictedFiles maxSizeBytes removable = [] ∨
          ∃ earlier last, cache.evictedFiles maxSizeBytes removable = earlier ++ [last] ∧
            maxSizeBytes <
              total CacheFile.bytes cache.files - total CacheFile.bytes earlier :=
        Eviction.evicted_needed _ _
      cases hneeded with
      | inl hnone =>
          apply absurd _ hchanged
          rw [files_enforceSizeLimit hfits, hnone, List.filter_eq_self]
          exact fun file _ => decide_eq_true List.not_mem_nil
      | inr hlast =>
          obtain ⟨earlier, last, hevicted, hexceeds⟩ := hlast
          have hmem : last ∈ cache.evictedFiles maxSizeBytes removable := by
            rw [hevicted]
            exact List.mem_append_right _ (List.mem_singleton_self _)
          have hfile := mem_files_of_evicted hmem
          refine ⟨last, hfile, ?_, ?_, ?_⟩
          · rw [mem_enforceSizeLimit hfits hfile]
            exact not_not.mpr hmem
          · intro removed hremoved hgone
            rw [mem_enforceSizeLimit hfits hremoved, not_not, hevicted] at hgone
            have hsorted : (cache.evictedFiles maxSizeBytes removable).Pairwise fun older newer =>
                cache.accessTime older ≤ cache.accessTime newer :=
              (evictionOrder_sorted cache).sublist (Eviction.evicted_sublist _ _)
            rw [hevicted, List.pairwise_append] at hsorted
            cases List.mem_append.mp hgone with
            | inl hearlier => exact hsorted.2.2 removed hearlier last (List.mem_singleton_self _)
            | inr hsame => exact (congrArg _ (List.mem_singleton.mp hsame)).le
          · have hlastTotal : total CacheFile.bytes [last] = last.bytes := List.sum_singleton
            rw [total_enforceSizeLimit hfits, hevicted, Eviction.total_append, hlastTotal,
              ← sub_sub, sub_add_cancel]
            exact hexceeds
    · intro kept hkept hresists hnewer hkeptFits file hfile
      classical
      have hkeptNodup := (nodup_files cache).sublist hkept
      have horder := evictionOrder_perm cache
      rw [mem_enforceSizeLimit hfits (hkept.subset hfile)]
      intro hevicted
      apply Eviction.evicted_maximal (evictionOrder_sorted cache) _ _ _ file hevicted hfile
      · exact fun other hother => hresists other (horder.mem_iff.mp hother)
      · exact fun other hother hnot newer _ => hnewer other (horder.mem_iff.mp hother) hnot newer
      · have hsplit := Eviction.total_filter_add CacheFile.bytes (fun file => file ∈ kept)
          cache.evictionOrder
        have hchosen : (cache.evictionOrder.filter fun file => file ∈ kept).Perm kept := by
          rw [List.perm_ext_iff_of_nodup ((horder.nodup_iff.mpr (nodup_files cache)).filter _)
            hkeptNodup]
          intro other
          rw [List.mem_filter, decide_eq_true_iff, horder.mem_iff]
          exact and_iff_right_of_imp fun hmem => hkept.subset hmem
        have hothers : (cache.evictionOrder.filter fun file => !decide (file ∈ kept)) =
            cache.evictionOrder.filter fun file => file ∉ kept :=
          List.filter_congr fun other _ => (decide_not).symm
        rw [Eviction.total_perm _ hchosen, hothers, Eviction.total_perm _ horder] at hsplit
        rw [← hsplit]
        exact add_le_add_left hkeptFits _

end Enforce

/-! ## A get after a set -/

theorem natural_cast (value : ℕ) : natural (.num value) = some value := by
  rw [natural, Rat.den_natCast, Rat.num_natCast, if_pos ⟨rfl, Int.natCast_nonneg value⟩,
    Int.toNat_natCast]

theorem optionalString_optional (value : Option String) :
    optionalString (optional value) = some value := by
  cases value with
  | none => rfl
  | some text => rfl

theorem tokenUsage_usageData (usage : TokenUsage) : tokenUsage (usageData usage) = some usage := by
  have hprompt : field (usageData usage) "prompt_tokens" .null = .num usage.promptTokens := rfl
  have hcompletion : field (usageData usage) "completion_tokens" .null =
      .num usage.completionTokens := rfl
  have htotal : field (usageData usage) "total_tokens" .null = .num usage.totalTokens := rfl
  have hreasoning : field (usageData usage) "reasoning_tokens" (.num 0) =
      .num usage.reasoningTokens := rfl
  rw [tokenUsage, hprompt, hcompletion, htotal, hreasoning, natural_cast, natural_cast,
    natural_cast, natural_cast]
  rfl

/-- What the cache writes reads as the response. -/
theorem typedResponse_cacheData (response : LLMResponse) (timestamp : ℚ) :
    typedResponse (cacheData response timestamp) = some response := by
  have htext : field (cacheData response timestamp) "response_text" .null =
      .str response.text := rfl
  have husage : field (cacheData response timestamp) "token_usage" .null =
      .obj (usageData response.usage) := rfl
  have hmodel : field (cacheData response timestamp) "model" .null = .str response.model := rfl
  have hfinish : field (cacheData response timestamp) "finish_reason" .null =
      optional response.finishReason := rfl
  have hpricing : field (cacheData response timestamp) "pricing_metadata" .null =
      response.pricingMetadata.elim .null .obj := rfl
  have hmissing : field (cacheData response timestamp) "usage_missing" (.bool false) =
      .bool response.usageMissing := rfl
  have hreasoning : field (cacheData response timestamp) "reasoning_text" .null =
      optional response.reasoningText := rfl
  have hparams : field (cacheData response timestamp) "effective_params" (.obj []) =
      .obj response.effectiveParams := rfl
  have hmetadata : optionalObject (response.pricingMetadata.elim .null .obj) =
      some response.pricingMetadata := by
    cases response.pricingMetadata with
    | none => rfl
    | some metadata => rfl
  rw [typedResponse, htext, husage, hmodel, hfinish, hpricing, hmissing, hreasoning, hparams,
    optionalString_optional, optionalString_optional, hmetadata, object, Option.bind_some,
    tokenUsage_usageData]
  rfl

theorem readResponse_cacheData (surroundings : Surroundings) (response : LLMResponse)
    (timestamp : ℚ) :
    surroundings.readResponse (cacheData response timestamp) = .returned (some response) := by
  have hkeys : (["response_text", "token_usage", "model"].all fun key =>
      ((cacheData response timestamp).lookup key).isSome) = true := rfl
  rw [Surroundings.readResponse, if_pos hkeys, typedResponse_cacheData, Option.some_or]

/-- What happens to the directory: calls of caches that share it, and the removal of files or a
change of the log from elsewhere, such as `clear`. -/
inductive Operation where
  | get (settings : Settings) (key : String) (now accessedAt : ℚ)
  | set (settings : Settings) (key : String) (response : LLMResponse) (timestamp accessedAt : ℚ)
      (removable : CacheFile → Bool)
  | foreign (keep : CacheFile → Bool) (accessLog : AList fun _ : String => ℚ)

/-- The key an operation writes. -/
def Operation.written : Operation → Option String
  | .set _ key .. => some key
  | _ => none

def Cache.step (surroundings : Surroundings) (cache : Cache) : Operation → Cache
  | .get settings key now accessedAt =>
      (cache.get surroundings settings {} key now accessedAt).2.1
  | .set settings key response timestamp accessedAt removable =>
      cache.set surroundings settings key response timestamp accessedAt removable
  | .foreign keep accessLog =>
      { files := cache.files.filter keep
        accessLog := accessLog
        unique := cache.unique.sublist (List.filter_sublist.map _) }

section Lookup

variable {surroundings : Surroundings} {settings : Settings} {cache : Cache} {key : String}

theorem files_get (statistics : Statistics) (now accessedAt : ℚ) :
    (cache.get surroundings settings statistics key now accessedAt).2.1.files = cache.files := by
  rw [Cache.get]
  split_ifs
  · split
    · rfl
    · rfl
    · split
      · rfl
      · rfl
      · dsimp only
        split
        · rfl
        · rfl
        · rfl
    · rfl
  · rfl

/-- A call of `set` leaves files that were there and the one it writes. -/
theorem mem_files_set {written : String} {response : LLMResponse} {timestamp accessedAt : ℚ}
    {removable : CacheFile → Bool} {file : CacheFile}
    (hfile : file ∈
      (cache.set surroundings settings written response timestamp accessedAt removable).files) :
    file ∈ cache.files ∨
      file.key = written ∧ file.content = some (.obj (cacheData response timestamp)) := by
  rw [Cache.set] at hfile
  split_ifs at hfile
  · have hput := (enforceSizeLimit_evicts _ _ _).remain.mem hfile
    cases KeyedRows.mem_put hput with
    | inl hwritten => exact .inr (by rw [hwritten]; exact ⟨rfl, rfl⟩)
    | inr hold => exact .inl hold
  · exact .inl hfile

/-- No operation but a write of the key brings its file. -/
theorem mem_files_step {operation : Operation} (hother : operation.written ≠ some key)
    {file : CacheFile} (hfile : file ∈ (cache.step surroundings operation).files)
    (hkey : file.key = key) : file ∈ cache.files := by
  cases operation with
  | get settings wanted now accessedAt => exact files_get {} now accessedAt ▸ hfile
  | set settings written response timestamp accessedAt removable =>
      cases mem_files_set hfile with
      | inl hold => exact hold
      | inr hwritten => exact absurd (congrArg some (hwritten.1.symm.trans hkey)) hother
  | foreign keep accessLog => exact (List.mem_filter.mp hfile).1

theorem mem_files_run {operations : List Operation}
    (hothers : ∀ operation ∈ operations, operation.written ≠ some key) {file : CacheFile}
    (hfile : file ∈ (operations.foldl (Cache.step surroundings) cache).files)
    (hkey : file.key = key) : file ∈ cache.files := by
  induction operations generalizing cache with
  | nil => exact hfile
  | cons operation operations ih =>
      rw [List.forall_mem_cons] at hothers
      exact mem_files_step hothers.1 (ih hothers.2 hfile) hkey

/-- The file a call of `set` leaves under its key, if any, has what was stored. -/
theorem content_set {response : LLMResponse} {timestamp accessedAt : ℚ}
    {removable : CacheFile → Bool} (henabled : settings.enabled = true) {file : CacheFile}
    (hfile : file ∈
      (cache.set surroundings settings key response timestamp accessedAt removable).files)
    (hkey : file.key = key) : file.content = some (.obj (cacheData response timestamp)) := by
  rw [Cache.set, if_pos henabled] at hfile
  have hput := (enforceSizeLimit_evicts _ _ _).remain.mem hfile
  have hfetch := (KeyedRows.fetch_eq_some_iff (KeyedRows.nodup_put cache.unique _)).mpr
    ⟨hput, hkey⟩
  rw [KeyedRows.fetch_put, if_pos rfl] at hfetch
  rw [← Option.some_inj.mp hfetch]

end Lookup

/-- The law of the cache: an eviction removes what was used least recently and no more than it
must, and a response that was stored, and is neither evicted nor expired, is returned. -/
theorem cache_law (surroundings : Surroundings) :
    (∀ (cache : Cache) (maxSizeBytes : ℚ) (removable : CacheFile → Bool),
      Evicts maxSizeBytes removable cache (cache.enforceSizeLimit maxSizeBytes removable)) ∧
    ∀ (writer reader : Settings) (before after : Cache) (key : String) (response : LLMResponse)
      (timestamp storedAt : ℚ) (removable : CacheFile → Bool) (operations : List Operation)
      (statistics : Statistics) (now accessedAt : ℚ),
      writer.enabled = true → reader.enabled = true →
      (∀ operation ∈ operations, operation.written ≠ some key) →
      after = operations.foldl (Cache.step surroundings)
        (before.set surroundings writer key response timestamp storedAt removable) →
      (after.find key).isSome = true → now - timestamp < reader.ttlSeconds →
      (after.get surroundings reader statistics key now accessedAt).1 =
        .returned (some response) := by
  refine ⟨enforceSizeLimit_evicts, ?_⟩
  intro writer reader before after key response timestamp storedAt removable operations
    statistics now accessedAt hwriter hreader hothers hafter hpresent hfresh
  obtain ⟨file, hfind⟩ := Option.isSome_iff_exists.mp hpresent
  obtain ⟨hfile, hkey⟩ := KeyedRows.fetch_mem hfind
  rw [hafter] at hfile
  have hcontent := content_set hwriter (mem_files_run hothers hfile hkey) hkey
  have hexpired : isExpired reader (cacheData response timestamp) now = some false := by
    have htimestamp : ((cacheData response timestamp).lookup "timestamp").getD (.num 0) =
        .num timestamp := rfl
    rw [isExpired, htimestamp]
    exact congrArg some (decide_eq_false (not_le.mpr hfresh))
  obtain ⟨name, size, content⟩ := file
  subst hcontent
  rw [Cache.get, if_pos hreader, hfind]
  dsimp only
  rw [hexpired]
  dsimp only
  rw [readResponse_cacheData]

end AlgorithmHarness.LlmCache
