import Mathlib.Data.List.TakeWhile
import Zilliqa.Eth.BlocksCache
import Zilliqa.Lib.Digits

/-!
# `Eth.FiltersUtils` — event filters: what `InitializeEventFilter` accepts and what `Match` matches

`InitializeEventFilter` reads the JSON parameters of `eth_newFilter` and `eth_getLogs` into an
`EventFilterParams`: the block range, up to sixteen addresses, and up to four topic positions, each
a list of alternatives (`null`, `[]` and a trailing run of them are wildcards, and are dropped from
the end). `Match` keeps a log when its address is one of the filter's, and when at every topic
position that both the filter and the log have, the log's topic is one of the alternatives, every
comparison ignoring case.

`Match` walks the filter's positions in step with the log's topics and stops when the log has none
left, so a position the filter constrains beyond the log's last topic is never checked
(`match_eq_true_iff`, with `MatchSpec`). It keeps every log that the topic condition of
`eth_getLogs` keeps, and agrees with it on logs with a topic at every position of the filter
(`LogsTopicsMatch`); a log with one topic, though, matches a filter constraining two
(`match_ignores_missing_topics`), as the repository's own table of expected matches has it.

## Contents
- `JsonValue`, the part of `Json::Value` the filters read, with `get` and `empty`.
- `extractTopicFilter`, `extractTopicFilters`, `extractStringFromJsonObj`, `extractNumber`,
  `extractEpochFromParam`, `extractAddresses`, `extractArrayFromJsonObj`, `initializeEventFilter`.
- `matchTopics` and `«match»`; `TopicsMatch` and `MatchSpec`, what they check, and `LogsTopicsMatch`,
  what `eth_getLogs` checks.
- What an accepted filter looks like, and what `Match` keeps of it.
- Filter ids: `newFilterId` writes `0x`, the counter in hexadecimal and a letter for the type;
  `guessFilterType` reads the type back (`guessFilterType_newFilterId`), and the id determines the
  counter and the type (`newFilterId_inj`).
-/

namespace Zilliqa

namespace Filters

/-- A `std::string`, as its characters. -/
abbrev Str := List Char

/-- The part of `Json::Value` the filters read: numbers only by their type. -/
inductive JsonValue where
  | null
  | bool (b : Bool)
  | number (text : Str)
  | string (s : Str)
  | array (items : List JsonValue)
  | object (members : List (Str × JsonValue))

namespace JsonValue

def isArray : JsonValue → Bool
  | .array _ => true
  | _ => false

def isObject : JsonValue → Bool
  | .object _ => true
  | _ => false

/-- `Json::Value::empty`: `null`, an empty array or an empty object; never a string. -/
def empty : JsonValue → Bool
  | .null => true
  | .array [] => true
  | .object [] => true
  | _ => false

/-- `Json::Value::get(key, defaultValue)` on an object: the member, or the default. -/
def get (v : JsonValue) (key : Str) (defaultValue : JsonValue) : JsonValue :=
  match v with
  | .object members => ((members.find? fun member => member.1 == key).map (·.2)).getD defaultValue
  | _ => defaultValue

end JsonValue

/-- `EARLIEST_EPOCH`. -/
def earliestEpoch : ℤ := -4

/-- `LATEST_EPOCH`. -/
def latestEpoch : ℤ := -3

/-- `PENDING_EPOCH`. -/
def pendingEpoch : ℤ := -2

/-- `EventFilterParams`, as `InstallNewEventFilter` and `GetLogs` construct it. -/
structure EventFilterParams where
  fromBlock : ℤ := seenNothing
  toBlock : ℤ := seenNothing
  /-- Any of these addresses; none means every address. -/
  address : List Str := []
  /-- At each position, any of these topics; none means every topic. -/
  topicMatches : List (List Str) := []
deriving DecidableEq, Repr

/-- `boost::algorithm::to_lower`. -/
def lower (s : Str) : Str := s.map Char.toLower

/-- `boost::iequals`: the same length and the same characters up to case. -/
def iequals (a b : Str) : Bool := a.map Char.toUpper == b.map Char.toUpper

/-! ## `InitializeEventFilter` -/

/-- One alternative of a topic position: a string, lower-cased. -/
def topicVariant (value : JsonValue) : Except String Str :=
  match value with
  | .string s => if value.empty then throw "Invalid topic filter: parse error" else pure (lower s)
  | _ => throw "Invalid topic filter: parse error"

/-- `ExtractTopicFilter`: the alternatives of one position; `null` and `[]` have none. -/
def extractTopicFilter (topic : JsonValue) : Except String (List Str) :=
  match topic with
  | .null => pure []
  | .string s =>
    if topic.empty then throw "Invalid topic filter: empty string" else pure [lower s]
  | .array [] => pure []
  | .array values => values.mapM topicVariant
  | _ => throw "Invalid topic filter: array expected"

/-- The loop that pops the trailing wildcard positions. -/
def dropTrailingWildcards (topicMatches : List (List Str)) : List (List Str) :=
  (topicMatches.reverse.dropWhile List.isEmpty).reverse

/-- `ExtractTopicFilters`: at most four positions, trailing wildcards dropped. -/
def extractTopicFilters (topics : JsonValue) : Except String (List (List Str)) :=
  match topics with
  | .array items =>
    if items.isEmpty then pure []
    else if items.length > 4 then throw "Size of filter topics exceed 4"
    else do
      let topicMatches ← items.mapM extractTopicFilter
      pure (dropTrailingWildcards topicMatches)
  | _ => throw "Invalid event filter params (not an array)"

/-- `ExtractStringFromJsonObj`: nothing for a missing or `null` member, the lower-cased string for a
    string, and an error otherwise. -/
def extractStringFromJsonObj (obj : JsonValue) (key : Str) : Except String (Option Str) :=
  match obj.get key .null with
  | .null => pure none
  | .string s => pure (some (lower s))
  | _ => throw "String value expected"

section Parsing

-- `std::stoull(str, nullptr, 16)`, with the text of the exception it throws; the C library's
-- parser is not modelled.
variable (stoull : Str → Except String ℕ)

/-- `ExtractNumber`: an optional `0x` prefix, then hexadecimal digits. -/
def extractNumber (str : Str) : Except String ℕ := do
  let str ← if 2 ≤ str.length ∧ str.getD 1 ' ' = 'x' then
      if str.getD 0 ' ' ≠ '0' then throw "Param parse error, 0x expected" else pure (str.drop 2)
    else pure str
  if str.isEmpty then throw "Hex string is empty"
  match stoull str with
  | .ok number => pure number
  | .error what => throw ("Param parse error: " ++ what)

/-- `ExtractEpochFromParam`: `earliest`, a number (its `uint64_t` read as an `int64_t`), `latest`
    or `pending`. -/
def extractEpochFromParam (str : Str) : Except String ℤ :=
  if str.isEmpty then throw "Block number param parse error, empty string"
  else if str = "earliest".toList then pure earliestEpoch
  else if (str.getD 0 ' ').isHexDigit then
    (extractNumber stoull str).map fun number => toEpochNumber (UInt64.ofNat number)
  else if str = "latest".toList then pure latestEpoch
  else if str = "pending".toList then pure pendingEpoch
  else throw ("Block number param parse error: " ++ String.ofList str)

/-- `fromBlock` or `toBlock`: `SEEN_NOTHING` when absent. -/
def extractBlockParam (params : JsonValue) (key : Str) : Except String ℤ := do
  match ← extractStringFromJsonObj params key with
  | some str => extractEpochFromParam stoull str
  | none => pure seenNothing

/-- The addresses: an array of strings or one string, at most sixteen, kept as written. -/
def extractAddresses (v : JsonValue) : Except String (List Str) := do
  let addresses ← match v with
    | .array items =>
      items.mapM fun address => match address with
        | .string s => pure s
        | _ => throw "Addresses must be strings"
    | .string s => pure [s]
    | _ => throw "Address must be an array or a string"
  if addresses.length > 16 then throw "Address cannot contain more than 16 elements"
  pure addresses

/-- `ExtractArrayFromJsonObj`: the member when it is an array, `[]` when it is missing. -/
def extractArrayFromJsonObj (obj : JsonValue) (key : Str) : Except String JsonValue :=
  let v := obj.get key (.array [])
  if v.isArray then pure v else throw "Json array expected"

/-- **`InitializeEventFilter`**, into a fresh `EventFilterParams` as every caller passes. -/
def initializeEventFilter (params : JsonValue) : Except String EventFilterParams := do
  if !params.isObject then throw "Invalid event filter params (not an object)"
  let fromBlock ← extractBlockParam stoull params "fromBlock".toList
  let toBlock ← extractBlockParam stoull params "toBlock".toList
  let addresses ← extractAddresses (params.get "address".toList (.array []))
  let topics ← extractArrayFromJsonObj params "topics".toList
  let topicMatches ← extractTopicFilters topics
  pure { fromBlock, toBlock, address := addresses, topicMatches }

end Parsing

/-! ## `Match` -/

/-- The loop of `Match` over the filter's positions, in step with the log's topics: it stops, and
    matches, when the log has no topic left (`total <= i`). -/
def matchTopics : List (List Str) → List Str → Bool
  | [], _ => true
  | _ :: _, [] => true
  | topicMatch :: rest, topic :: topics =>
    if topicMatch.isEmpty then matchTopics rest topics
    else if topicMatch.any (fun t => iequals t (lower topic)) then matchTopics rest topics
    else false

/-- **`evmproj::filters::Match`**. -/
def «match» (filter : EventFilterParams) (address : Str) (topics : List Str) : Bool :=
  (filter.address.isEmpty || filter.address.any (fun a => iequals address a)) &&
    (filter.topicMatches.isEmpty || matchTopics filter.topicMatches topics)

/-! ## What `Match` matches -/

/-- A condition on the pairs at each position that two lists share: at the head and at every
    later position. -/
theorem forall_pairs_cons {α β : Type} (P : α → β → Prop) (a : α) (as : List α) (b : β)
    (bs : List β) :
    (∀ (i : ℕ) x y, (a :: as)[i]? = some x → (b :: bs)[i]? = some y → P x y) ↔
      P a b ∧ ∀ (i : ℕ) x y, as[i]? = some x → bs[i]? = some y → P x y := by
  constructor
  · intro h
    exact ⟨h 0 a b rfl rfl, fun i x y hx hy => h (i + 1) x y hx hy⟩
  · rintro ⟨h0, h⟩ i x y hx hy
    cases i with
    | zero =>
      rw [List.getElem?_cons_zero, Option.some.injEq] at hx hy
      subst hx hy
      exact h0
    | succ i => exact h i x y hx hy

/-- What `Match` asks of the log's topic at a position the filter constrains. -/
def TopicAccepted (alternatives : List Str) (topic : Str) : Prop :=
  alternatives ≠ [] → ∃ t ∈ alternatives, iequals t (lower topic) = true

/-- The topic condition `Match` checks: at every position that both the filter and the log have,
    the log's topic is one of the alternatives, when there are any. -/
def TopicsMatch (topicMatches : List (List Str)) (topics : List Str) : Prop :=
  ∀ (i : ℕ) alternatives topic, topicMatches[i]? = some alternatives → topics[i]? = some topic →
    TopicAccepted alternatives topic

/-- The condition `Match` checks of a log. -/
def MatchSpec (filter : EventFilterParams) (address : Str) (topics : List Str) : Prop :=
  (filter.address = [] ∨ ∃ a ∈ filter.address, iequals address a = true) ∧
    TopicsMatch filter.topicMatches topics

/-- The topic condition of `eth_getLogs`: every position the filter constrains is in the log, and
    holds one of the alternatives. -/
def LogsTopicsMatch (topicMatches : List (List Str)) (topics : List Str) : Prop :=
  ∀ (i : ℕ) alternatives, topicMatches[i]? = some alternatives → alternatives ≠ [] →
    ∃ topic, topics[i]? = some topic ∧ ∃ t ∈ alternatives, iequals t (lower topic) = true

/-- **The topic loop of `Match`**: the positions past the log's last topic are not looked at. -/
theorem matchTopics_eq_true_iff : ∀ (topicMatches : List (List Str)) (topics : List Str),
    matchTopics topicMatches topics = true ↔ TopicsMatch topicMatches topics := by
  unfold TopicsMatch
  intro topicMatches
  induction topicMatches with
  | nil =>
    intro topics
    simp only [matchTopics, List.getElem?_nil, reduceCtorEq, false_implies, implies_true]
  | cons topicMatch rest ih =>
    intro topics
    cases topics with
    | nil => simp only [matchTopics, List.getElem?_nil, reduceCtorEq, false_implies, implies_true]
    | cons topic topics =>
      rw [forall_pairs_cons TopicAccepted, ← ih topics]
      rw [matchTopics.eq_3]
      unfold TopicAccepted
      -- a wildcard position, an accepted topic, or a rejected one
      by_cases hwild : topicMatch.isEmpty
      · rw [if_pos hwild, List.isEmpty_iff.1 hwild]
        simp only [ne_eq, not_true_eq_false, false_implies, true_and]
      · rw [if_neg hwild]
        have hne : topicMatch ≠ [] := fun h => hwild (List.isEmpty_iff.2 h)
        by_cases hany : topicMatch.any (fun t => iequals t (lower topic)) = true
        · rw [if_pos hany]
          exact ⟨fun h => ⟨fun _ => List.any_eq_true.1 hany, h⟩, fun h => h.2⟩
        · rw [if_neg hany]
          refine ⟨fun h => absurd h Bool.false_ne_true, fun h => absurd (h.1 hne) ?_⟩
          exact fun hex => hany (List.any_eq_true.2 hex)

/-- **`Match`** keeps exactly the logs of `MatchSpec`. -/
theorem match_eq_true_iff (filter : EventFilterParams) (address : Str) (topics : List Str) :
    «match» filter address topics = true ↔ MatchSpec filter address topics := by
  unfold «match» MatchSpec
  rw [Bool.and_eq_true, Bool.or_eq_true, Bool.or_eq_true, List.isEmpty_iff, List.isEmpty_iff,
    List.any_eq_true, ← matchTopics_eq_true_iff]
  -- with no topic position, the loop matches anyway
  have hnil : filter.topicMatches = [] → matchTopics filter.topicMatches topics = true := by
    intro h
    rw [h, matchTopics]
  exact and_congr_right fun _ => ⟨fun h => h.elim hnil id, Or.inr⟩

/-- `Match` keeps every log that `eth_getLogs` keeps. -/
theorem topicsMatch_of_logsTopicsMatch {topicMatches : List (List Str)} {topics : List Str}
    (h : LogsTopicsMatch topicMatches topics) : TopicsMatch topicMatches topics := by
  intro i alternatives topic hi htopic hne
  obtain ⟨topic', htopic', hmem⟩ := h i alternatives hi hne
  rw [htopic, Option.some.injEq] at htopic'
  subst htopic'
  exact hmem

/-- On a log with a topic at every position the filter has, `Match` and `eth_getLogs` agree. -/
theorem logsTopicsMatch_of_topicsMatch {topicMatches : List (List Str)} {topics : List Str}
    (hlen : topicMatches.length ≤ topics.length) (h : TopicsMatch topicMatches topics) :
    LogsTopicsMatch topicMatches topics := by
  intro i alternatives hi hne
  have hlt : i < topics.length := lt_of_lt_of_le (List.getElem?_eq_some_iff.1 hi).1 hlen
  have htopic := List.getElem?_eq_getElem hlt
  exact ⟨topics[i], htopic, h i alternatives topics[i] hi htopic hne⟩

/-! ## What `InitializeEventFilter` accepts -/

theorem head?_dropWhile_isEmpty : ∀ (l : List (List Str)), (l.dropWhile List.isEmpty).head? ≠ some []
  | [] => by simp
  | x :: xs => by
    by_cases hx : x.isEmpty
    · rw [List.dropWhile_cons_of_pos hx]
      exact head?_dropWhile_isEmpty xs
    · rw [List.dropWhile_cons_of_neg hx, List.head?_cons, Ne, Option.some.injEq]
      exact fun h => hx (List.isEmpty_iff.2 h)

/-- The popping loop leaves no wildcard at the end. -/
theorem getLast?_dropTrailingWildcards (topicMatches : List (List Str)) :
    (dropTrailingWildcards topicMatches).getLast? ≠ some [] := by
  unfold dropTrailingWildcards
  rw [List.getLast?_reverse]
  exact head?_dropWhile_isEmpty _

theorem length_dropTrailingWildcards_le (topicMatches : List (List Str)) :
    (dropTrailingWildcards topicMatches).length ≤ topicMatches.length := by
  unfold dropTrailingWildcards
  rw [List.length_reverse]
  exact (List.length_dropWhile_le _ _).trans List.length_reverse.le

/-- A parse of every item has one result per item. -/
theorem length_of_mapM_ok {α β ε : Type} (f : α → Except ε β) :
    ∀ (l : List α) {r : List β}, l.mapM f = .ok r → r.length = l.length
  | [], r, h => by
    rw [List.mapM_nil] at h
    cases h
    rfl
  | a :: l, r, h => by
    rw [List.mapM_cons] at h
    cases hf : f a with
    | error e =>
      rw [hf] at h
      cases h
    | ok b =>
      cases hl : l.mapM f with
      | error e =>
        rw [hf, hl] at h
        cases h
      | ok bs =>
        rw [hf, hl] at h
        cases h
        rw [List.length_cons, List.length_cons, length_of_mapM_ok f l hl]

/-- **The topic positions of an accepted filter**: at most four, and the last one not a
    wildcard. -/
theorem extractTopicFilters_ok {topics : JsonValue} {topicMatches : List (List Str)}
    (h : extractTopicFilters topics = .ok topicMatches) :
    topicMatches.length ≤ 4 ∧ topicMatches.getLast? ≠ some [] := by
  unfold extractTopicFilters at h
  cases topics with
  | array items =>
    dsimp only at h
    by_cases hempty : items.isEmpty
    · rw [if_pos hempty] at h
      cases h
      simp
    · rw [if_neg hempty] at h
      by_cases hlong : items.length > 4
      · rw [if_pos hlong] at h
        cases h
      · rw [if_neg hlong] at h
        cases hmap : items.mapM extractTopicFilter with
        | error e =>
          rw [hmap] at h
          cases h
        | ok parsed =>
          rw [hmap] at h
          cases h
          have hlen := length_of_mapM_ok _ items hmap
          exact ⟨(length_dropTrailingWildcards_le parsed).trans (by omega),
            getLast?_dropTrailingWildcards parsed⟩
  | _ => cases h

/-- A step of a parse that succeeds succeeded, and the rest of the parse succeeded on its
    result. -/
theorem exists_of_bind_eq_ok {ε α β : Type} {x : Except ε α} {f : α → Except ε β} {b : β}
    (h : (x >>= f) = .ok b) : ∃ a, x = .ok a ∧ f a = .ok b := by
  cases x with
  | error e => cases h
  | ok a => exact ⟨a, rfl, h⟩

/-- An accepted address list has at most sixteen addresses. -/
theorem extractAddresses_ok {v : JsonValue} {addresses : List Str}
    (h : extractAddresses v = .ok addresses) : addresses.length ≤ 16 := by
  unfold extractAddresses at h
  dsimp only at h
  -- the array, the single string and the refused value all end in the same count check
  split at h
  all_goals
    obtain ⟨parsed, -, h⟩ := exists_of_bind_eq_ok h
    split at h
    · obtain ⟨_, hthrow, -⟩ := exists_of_bind_eq_ok h
      cases hthrow
    · cases h
      omega

section Accepted

variable (stoull : Str → Except String ℕ)

/-- **An accepted filter** names at most sixteen addresses, and its topic positions are those of
    an accepted topic array. -/
theorem initializeEventFilter_ok {params : JsonValue} {filter : EventFilterParams}
    (h : initializeEventFilter stoull params = .ok filter) :
    filter.address.length ≤ 16 ∧ ∃ topics, extractTopicFilters topics = .ok filter.topicMatches := by
  unfold initializeEventFilter at h
  dsimp only at h
  -- a params value that is not an object is refused before anything is read
  split at h
  · obtain ⟨_, hthrow, -⟩ := exists_of_bind_eq_ok h
    cases hthrow
  obtain ⟨fromBlock, -, h⟩ := exists_of_bind_eq_ok h
  obtain ⟨toBlock, -, h⟩ := exists_of_bind_eq_ok h
  obtain ⟨addresses, haddr, h⟩ := exists_of_bind_eq_ok h
  obtain ⟨topics, -, h⟩ := exists_of_bind_eq_ok h
  obtain ⟨topicMatches, htopics, h⟩ := exists_of_bind_eq_ok h
  cases h
  exact ⟨extractAddresses_ok haddr, topics, htopics⟩

/-- **What `Match` keeps, for an accepted filter**: the filter names at most sixteen addresses and
    constrains at most four positions, the last of them not a wildcard; and a log matches exactly
    when `MatchSpec` holds, which looks at no position past the log's last topic. -/
theorem match_accepted_filter_iff {params : JsonValue} {filter : EventFilterParams}
    (h : initializeEventFilter stoull params = .ok filter) (address : Str) (topics : List Str) :
    filter.address.length ≤ 16 ∧ filter.topicMatches.length ≤ 4 ∧
      filter.topicMatches.getLast? ≠ some [] ∧
      («match» filter address topics = true ↔ MatchSpec filter address topics) := by
  obtain ⟨haddr, topicsValue, htopics⟩ := initializeEventFilter_ok stoull h
  obtain ⟨hlen, hlast⟩ := extractTopicFilters_ok htopics
  exact ⟨haddr, hlen, hlast, match_eq_true_iff filter address topics⟩

end Accepted

/-! ## A log with fewer topics than the filter constrains -/

/-- The filter params `{"topics": ["0x1111", "0x2222"]}`. -/
def twoTopicParams : JsonValue :=
  .object [("topics".toList, .array [.string "0x1111".toList, .string "0x2222".toList])]

/-- A `std::stoull` that refuses every text: the params above name no block, so the parser is never
    called, and with this one a filter is accepted only if it is not. -/
def refuseAll : Str → Except String ℕ := fun _ => throw "stoull"

/-- The filter `InitializeEventFilter` makes of them. -/
def twoTopicFilter : EventFilterParams :=
  { topicMatches := [["0x1111".toList], ["0x2222".toList]] }

theorem match_accepted_filter_iff_twoTopics :
    initializeEventFilter refuseAll twoTopicParams = .ok twoTopicFilter ∧
      twoTopicFilter.address.length ≤ 16 ∧ twoTopicFilter.topicMatches.length ≤ 4 ∧
      twoTopicFilter.topicMatches.getLast? ≠ some [] ∧
      («match» twoTopicFilter "0xabcd".toList ["0x1111".toList] = true ↔
        MatchSpec twoTopicFilter "0xabcd".toList ["0x1111".toList]) := by
  have hok : initializeEventFilter refuseAll twoTopicParams = .ok twoTopicFilter := by
    decide
  exact ⟨hok, match_accepted_filter_iff _ hok _ _⟩

/-- The filter constraining two positions is accepted, and it keeps a log whose only topic is
    the first one, which `eth_getLogs` does not. -/
theorem match_ignores_missing_topics :
    initializeEventFilter refuseAll twoTopicParams = .ok twoTopicFilter ∧
      «match» twoTopicFilter "0xabcd".toList ["0x1111".toList] = true ∧
      ¬ LogsTopicsMatch twoTopicFilter.topicMatches ["0x1111".toList] := by
  refine ⟨by decide, by decide, ?_⟩
  -- the second position is constrained and the log has no topic there
  intro hspec
  obtain ⟨topic, htopic, -⟩ := hspec 1 ["0x2222".toList] rfl (List.cons_ne_nil _ _)
  cases htopic

/-! ## Filter ids -/

/-- `FilterType`. -/
inductive FilterType where
  | invalid
  | eventFilter
  | txnFilter
  | blkFilter
deriving DecidableEq, Repr

/-- `Suffix(type)`: the letter that ends an id of the type. It asserts that the type is not
    `INVALID`, here a precondition; its `throw` after the switch is then unreachable. -/
def suffix : (type : FilterType) → type ≠ .invalid → Char
  | .eventFilter, _ => 'a'
  | .txnFilter, _ => 'b'
  | .blkFilter, _ => 'c'
  | .invalid, h => absurd rfl h

/-- `NewFilterId(counter, type)`: `0x`, the counter under `std::hex`, and the type's letter. -/
def newFilterId (counter : UInt64) (type : FilterType) (h : type ≠ .invalid) : Str :=
  ['0', 'x'] ++ Nat.toDigits 16 counter.toNat ++ [suffix type h]

/-- `GuessFilterType(id)`: the type named by the last letter of an id of three characters or
    more. -/
def guessFilterType (id : Str) : FilterType :=
  if 3 ≤ id.length then
    match id.getLast? with
    | some 'a' => .eventFilter
    | some 'b' => .txnFilter
    | some 'c' => .blkFilter
    | _ => .invalid
  else .invalid

theorem length_newFilterId (counter : UInt64) (type : FilterType) (h : type ≠ .invalid) :
    (newFilterId counter type h).length = (Nat.toDigits 16 counter.toNat).length + 3 := by
  simp only [newFilterId, List.length_append, List.length_cons, List.length_nil]
  omega

/-- **`GuessFilterType` reads back the type `NewFilterId` wrote**: every id has at least one
    digit, so three characters or more, and ends in the type's letter. -/
theorem guessFilterType_newFilterId (counter : UInt64) (type : FilterType)
    (h : type ≠ .invalid) : guessFilterType (newFilterId counter type h) = type := by
  have hlen : 3 ≤ (newFilterId counter type h).length := by
    rw [length_newFilterId]
    omega
  unfold guessFilterType
  rw [if_pos hlen, newFilterId, List.getLast?_concat]
  cases type with
  | invalid => exact absurd rfl h
  | eventFilter => rfl
  | txnFilter => rfl
  | blkFilter => rfl

/-- **An id determines its counter and its type**: the hexadecimal numeral reads back. -/
theorem newFilterId_inj {counter counter' : UInt64} {type type' : FilterType}
    {h : type ≠ .invalid} {h' : type' ≠ .invalid}
    (heq : newFilterId counter type h = newFilterId counter' type' h') :
    counter = counter' ∧ type = type' := by
  have htype : type = type' := by
    rw [← guessFilterType_newFilterId counter type h, heq, guessFilterType_newFilterId]
  refine ⟨?_, htype⟩
  -- drop the letter, then the prefix: the numerals are equal
  unfold newFilterId at heq
  have hdigits := List.append_cancel_left (List.append_inj' heq rfl).1
  exact UInt64.toNat_inj.1 (Digits.toDigits_injective (by decide) (by decide) hdigits)

end Filters

end Zilliqa
