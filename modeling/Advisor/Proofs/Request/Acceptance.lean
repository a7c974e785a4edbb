import Advisor.Proofs.Number.Rounding
import Advisor.Proofs.Text.Trimming
import Advisor.Request
import Mathlib.Tactic.NormNum

/-!
Which requests are refused and what every accepted one gives: the bounds that the later stages count on.
-/

namespace Advisor.ChatRequest

/-- What a request can be refused for, and what the refusal says. -/
inductive Fault (r : ChatRequest) (config : Config) : String → Prop
  | apiKey (hblank : Text.trim r.apiKey = "") : Fault r config "api_key is required"
  | model (hblank : Text.trim r.model = "") : Fault r config "model is required"
  | userMessage (hblank : Text.trim r.userMessage = "") : Fault r config "user_message is required"
  | provider (name : String)
      (hname : name = Text.lower (nonEmptyOr r.provider config.defaultProvider))
      (hnone : config.baseUrl? name = none) : Fault r config ("unsupported provider: " ++ name)
  | temperature (t : Float) (hgiven : r.temperature = some t) (hfinite : t.isFinite = false) :
      Fault r config "temperature must be a number"
  | maxTokens (n : Int) (hgiven : r.maxTokens = some n) (hnegative : n < 0) :
      Fault r config "max_tokens must be positive"

/-- What the later stages count on in the turn of a request. -/
structure Established (r : ChatRequest) (config : Config) (turn : Turn) : Prop where
  apiKey : turn.apiKey ≠ "" ∧ Text.trim turn.apiKey = turn.apiKey
  model : turn.model ≠ "" ∧ Text.trim turn.model = turn.model
  userMessage : turn.userMessage ≠ "" ∧ Text.runeCount turn.userMessage ≤ 4000
  plannerModel : turn.plannerModel ≠ ""
  temperature : 0 ≤ turn.temperature.value ∧ turn.temperature.value ≤ 2
  maxTokens : 1 ≤ turn.maxTokens ∧ turn.maxTokens ≤ 1000000
  history : turn.history.length ≤ 16
  context : turn.context = { r.context with rows := r.context.rows.take 100 }
  baseUrl : turn.baseUrl ∈ Config.registry.map Prod.snd ∨
    ∃ url, config.customBaseUrl = some url ∧ turn.baseUrl = Config.withoutEndSlashes url

section Temperature

open Number Binary

theorem defaultTemperature_value :
    0 ≤ defaultTemperature.value ∧ defaultTemperature.value ≤ 2 := by
  constructor <;> norm_num [defaultTemperature, value, magnitude]

theorem round_single_value {x : Binary} (hsign : x.negative = false ∨ x.mantissa = 0)
    (hle : x.magnitude ≤ 2) :
    0 ≤ (round .single x).value ∧ (round .single x).value ≤ 2 := by
  rcases hsign with hpos | hzero
  · have hround : (round .single x).magnitude ≤ 2 ^ (1 : Int) :=
      magnitude_round_le (by decide) (by decide) (by simpa using hle)
    rw [value, round_negative, hpos]
    exact ⟨magnitude_nonneg _, by simpa using hround⟩
  · have hnone : (round .single x).value = 0 := by
      simp [Binary.round, hzero, value, magnitude]
    simp [hnone]

theorem clampTemperature_value (x : Binary) :
    0 ≤ (clampTemperature x).value ∧ (clampTemperature x).value ≤ 2 := by
  have htwo : magnitude ⟨false, 2, 0⟩ = 2 := by simp [magnitude]
  unfold clampTemperature
  dsimp only
  split
  · exact round_single_value (.inr rfl) (by simp [magnitude])
  rename_i hsign
  split
  · exact round_single_value (.inl rfl) htwo.le
  · rename_i hless
    refine round_single_value ?_ ?_
    · simpa [or_iff_not_imp_left] using hsign
    · rw [lessMagnitude_iff, htwo] at hless
      exact not_lt.1 hless

end Temperature

/-! Each field is refused for its own fault, and otherwise it is within its bound. -/

section Fields

variable {r : ChatRequest} {config : Config}

theorem required_of_ne {name value : String} (h : value ≠ "") : required name value = .ok value :=
  if_neg (mt String.isEmpty_iff.1 h)

theorem required_blank (name : String) :
    required name "" = .error (.validation (name ++ " is required")) :=
  if_pos rfl

theorem truncate_ne {s : String} (h : s ≠ "") : Text.truncate s History.maxMessageRunes ≠ "" := by
  rw [ne_eq, ← String.isEmpty_iff, Text.isEmpty_truncate (by decide), String.isEmpty_iff]
  exact h

theorem nonEmptyOr_ne {value fallback : String} (h : fallback ≠ "") :
    nonEmptyOr value fallback ≠ "" := by
  unfold nonEmptyOr
  dsimp only
  split
  · exact h
  · exact mt String.isEmpty_iff.2 ‹_›

theorem temperatureOf_eq (given : Option Float) :
    (∃ x, temperatureOf given = .ok x ∧ (∀ t, given = some t → t.isFinite) ∧
      0 ≤ x.value ∧ x.value ≤ 2) ∨
    ∃ t, given = some t ∧ t.isFinite = false ∧
      temperatureOf given = .error (.validation "temperature must be a number") := by
  cases given with
  | none => exact .inl ⟨_, rfl, by simp, defaultTemperature_value⟩
  | some t =>
      have hfinite := Number.Binary.ofFloat?_isSome t
      cases hexact : Number.Binary.ofFloat? t with
      | none =>
          rw [hexact] at hfinite
          exact .inr ⟨t, rfl, hfinite.symm, by simp [temperatureOf, hexact]⟩
      | some x =>
          rw [hexact] at hfinite
          exact .inl ⟨clampTemperature x, by simp [temperatureOf, hexact], by simp [← hfinite],
            clampTemperature_value x⟩

theorem maxTokensOf_eq (given : Option Int) :
    (∃ n, maxTokensOf given = .ok n ∧ (∀ k, given = some k → 0 ≤ k) ∧ 1 ≤ n ∧ n ≤ 1000000) ∨
    ∃ k, given = some k ∧ k < 0 ∧
      maxTokensOf given = .error (.validation "max_tokens must be positive") := by
  cases given with
  | none => exact .inl ⟨defaultMaxTokens, rfl, by simp, by decide, by decide⟩
  | some k =>
      simp only [maxTokensOf, Option.some.injEq, exists_eq_left', forall_eq']
      rcases lt_trichotomy k 0 with hneg | rfl | hpos
      · exact .inr ⟨hneg, by rw [if_neg hneg.ne, if_pos hneg]⟩
      · exact .inl ⟨defaultMaxTokens, rfl, le_rfl, by decide, by decide⟩
      · refine .inl ⟨min k.toNat maxTokensCeiling, ?_, hpos.le, ?_, ?_⟩
        · rw [if_neg hpos.ne', if_neg hpos.not_gt]
        · rw [maxTokensCeiling]
          omega
        · exact Nat.min_le_right ..

theorem length_normalize_le (raw : List RawMessage) : (History.normalize raw).length ≤ 16 := by
  rw [History.normalize, History.newest, List.length_drop, History.maxMessages]
  omega

theorem baseUrl?_eq_some {name url : String} (h : config.baseUrl? name = some url) :
    url ∈ Config.registry.map Prod.snd ∨
      ∃ custom, config.customBaseUrl = some custom ∧ url = Config.withoutEndSlashes custom := by
  unfold Config.baseUrl? at h
  dsimp only at h
  split at h
  · obtain ⟨custom, hcustom, rfl⟩ := Option.map_eq_some_iff.1 h
    exact .inr ⟨custom, hcustom, rfl⟩
  · obtain ⟨before, after, hsplit, _⟩ := List.lookup_eq_some_iff.1 h
    rw [hsplit]
    exact .inl (by simp)

end Fields

/-- A request is refused just when it has a fault, with the words for a fault it has. The turn of any
other one is within every bound, and its address is not of the client's making. -/
theorem validate_establishes (r : ChatRequest) (config : Config) (requestId : String) :
    (∃ why, r.validate config requestId = .error (.validation why) ∧ r.Fault config why) ∨
      ∃ turn, r.validate config requestId = .ok turn ∧ (∀ why, ¬ r.Fault config why) ∧
        r.Established config turn := by
  unfold validate
  by_cases hkey : Text.trim r.apiKey = ""
  · exact .inl ⟨_, by rw [hkey, required_blank]; rfl, .apiKey hkey⟩
  by_cases hmodel : Text.trim r.model = ""
  · exact .inl ⟨_, by rw [required_of_ne hkey, hmodel, required_blank]; rfl, .model hmodel⟩
  by_cases hmessage : Text.trim r.userMessage = ""
  · refine .inl ⟨_, ?_, .userMessage hmessage⟩
    rw [required_of_ne hkey, required_of_ne hmodel, hmessage]
    rfl
  have hcut := truncate_ne hmessage
  rw [required_of_ne hkey, required_of_ne hmodel, required_of_ne hcut]
  cases hurl : config.baseUrl? (Text.lower (nonEmptyOr r.provider config.defaultProvider)) with
  | none => exact .inl ⟨_, by simp [hurl]; rfl, .provider _ rfl hurl⟩
  | some url =>
  rcases temperatureOf_eq r.temperature with ⟨x, htemp, hfinite, hx⟩ | ⟨t, hgiven, hnot, htemp⟩
  case inr => exact .inl ⟨_, by simp [hurl, htemp]; rfl, .temperature t hgiven hnot⟩
  rcases maxTokensOf_eq r.maxTokens with ⟨n, htokens, hpos, hn⟩ | ⟨k, hgiven, hneg, htokens⟩
  case inr => exact .inl ⟨_, by simp [hurl, htemp, htokens]; rfl, .maxTokens k hgiven hneg⟩
  refine .inr ⟨_, by simp [hurl, htemp, htokens]; rfl, ?_, ?_⟩
  · rintro _ (h | h | h | ⟨_, rfl, h⟩ | ⟨t, hgiven, h⟩ | ⟨k, hgiven, h⟩)
    · exact hkey h
    · exact hmodel h
    · exact hmessage h
    · rw [hurl] at h
      cases h
    · rw [hfinite t hgiven] at h
      cases h
    · exact absurd (hpos k hgiven) h.not_ge
  · exact {
      apiKey := ⟨hkey, Text.trim_trim _⟩
      model := ⟨hmodel, Text.trim_trim _⟩
      userMessage := ⟨hcut, Text.runeCount_truncate_le ..⟩
      plannerModel := by
        dsimp only
        exact nonEmptyOr_ne hmodel
      temperature := hx
      maxTokens := hn
      history := length_normalize_le _
      context := rfl
      baseUrl := baseUrl?_eq_some hurl }

/-- The operator's address loses the slashes at its end, so it need not be word for word what was set. -/
theorem validate_cuts_slashes :
    ∃ turn,
      ({ blank with
          apiKey := "sk-test", model := "gpt-4o", provider := "custom", userMessage := "hello" }
        : ChatRequest).validate
          { Config.default with customBaseUrl := some "http://localhost:11434/v1/" } "REQ" = .ok turn ∧
      turn.baseUrl ∉ Config.registry.map Prod.snd ∧
      some turn.baseUrl ≠ some "http://localhost:11434/v1/" := by
  refine ⟨_, rfl, ?_, ?_⟩ <;> decide +kernel

end Advisor.ChatRequest
