import Advisor.Prompt.User
import Advisor.Proofs.Account.Writing
import Advisor.Proofs.Json.Layout

/-!
What the last message to a model says: its turn's message, the scan that is in view, the notes of the
helpers and every source in full.
-/

namespace Advisor.Prompt

/-- A part of a text, which is left out where there is nothing to say. -/
inductive Part (wanted : Prop) (part : String) : String → Prop
  | given (h : wanted) : Part wanted part part
  | left (h : ¬ wanted) : Part wanted part ""

theorem Part.ite {wanted : Prop} [Decidable wanted] (part : String) :
    Part wanted part (if wanted then part else "") := by
  split
  · exact .given ‹_›
  · exact .left ‹_›

theorem Part.unless {wanted skip : Prop} [Decidable skip] (h : wanted ↔ ¬ skip) (part : String) :
    Part wanted part (if skip then "" else part) := by
  split
  · exact .left fun hwanted => h.1 hwanted ‹_›
  · exact .given (h.2 ‹_›)

/-- Sources, numbered from one number on: each with where it is from and with its whole content. -/
inductive Entries (label : String) : Nat → List Knowledge.Snippet → String → Prop
  | nil : Entries label n [] ""
  | cons (hpage : Part (s.page ≠ "") ("page: " ++ s.page ++ "\n") page)
      (hchapter : Part (s.chapter ≠ "") ("section: " ++ s.chapter ++ "\n") chapter)
      (hurl : Part (s.url ≠ "") ("url: " ++ s.url ++ "\n") url)
      (hrest : Entries label (n + 1) rest text) :
      Entries label n (s :: rest) ("[" ++ label ++ " " ++ toString n ++ "] " ++ s.title ++ "\n" ++
        page ++ chapter ++ url ++ s.content ++ "\n\n" ++ text)

/-- What is said of the sources, if there are any. -/
def Knows (f : Findings) (locale : Locale) (text : String) : Prop :=
  ∃ wiki web, Entries "WIKI" 1 f.wiki wiki ∧ Entries "WEB" 1 f.web web ∧
    Part (f.wiki ≠ [] ∨ f.web ≠ []) ("KNOWLEDGE:\n" ++ wiki ++ web ++ citationRule locale) text

/-- What is shown of a scan, and of the account that is known with it. -/
structure Shows (c : Scan.Context) (scan : Json) : Prop where
  tabId : scan.get? "tab_id" = some (.ofOption .str c.tabId)
  scanId : scan.get? "scan_id" = some (.ofOption .str c.scanId)
  snapshot : scan.get? "scan_snapshot" = some (.obj c.snapshot)
  summary : scan.get? "summary" = some (.ofOption Scan.Summary.toJson c.summary)
  rows : scan.get? "rows" = some (.arr (c.rows.map Scan.Row.toJson))
  account : scan.get? "runtime" = some c.account.toJson
  accountOnly : ∀ view : Account.View, scan.get? "runtime" = some view.toJson → view = c.account
  readable : scan.Legible → Json.Writes scan.pretty scan

/-- How the last message to a model is written. -/
structure Lays (b : Brief) (text : String) : Prop where
  parts : ∃ scan dump caveats noted knowledge, Shows b.context scan ∧
    Part (wantsSettingsDump b.turn.userMessage) (dumpInstruction b.turn.locale) dump ∧
    Part (b.preflight.caveats ≠ [])
      (b.turn.locale.pick "Mention these limitations briefly in the answer: "
        "Кратко упомяни эти ограничения в ответе: " ++ " ".intercalate b.preflight.caveats ++ "\n\n")
      caveats ∧
    Part (notes b ≠ [])
      ("INTERNAL_AGENT_NOTES (do not quote):\n" ++
        String.join ((notes b).map fun l => "- " ++ l ++ "\n") ++ "\n") noted ∧
    Knows b.findings b.turn.locale knowledge ∧
    text = planLine b.plan ++ "USER MESSAGE:\n" ++ b.turn.userMessage ++ "\n\n" ++
      "SCAN CONTEXT (JSON):\n" ++ scan.pretty ++ "\n\n" ++ dump ++ caveats ++ noted ++ knowledge
  account : b.accountWanted → accountNote b.context.account ∈ notes b

theorem part_labelled (label value : String) :
    Part (value ≠ "") (label ++ ": " ++ value ++ "\n") (labelled label value) :=
  .unless (by simp) _

theorem entries_sourceEntries (label : String) (snippets : List Knowledge.Snippet) (n : Nat) :
    Entries label n snippets
      (String.join ((snippets.zipIdx n).map fun (s, n) => sourceEntry label n s)) := by
  induction snippets generalizing n with
  | nil => exact .nil
  | cons s rest ih =>
      rw [List.zipIdx_cons, List.map_cons, String.join_cons]
      exact .cons (part_labelled "page" s.page) (part_labelled "section" s.chapter)
        (part_labelled "url" s.url) (ih (n + 1))

theorem knows_sources (f : Findings) (locale : Locale) :
    Knows f locale (if f.isEmpty then "" else sources f locale) := by
  have hempty : f.isEmpty ↔ f.wiki = [] ∧ f.web = [] := by simp [Findings.isEmpty]
  refine ⟨_, _, entries_sourceEntries "WIKI" f.wiki 1, entries_sourceEntries "WEB" f.web 1, ?_⟩
  exact .unless (by rw [hempty, not_and_or]) _

theorem shows_toJson (c : Scan.Context) : Shows c c.toJson where
  tabId := rfl
  scanId := rfl
  snapshot := rfl
  summary := rfl
  rows := rfl
  account := rfl
  accountOnly _ hview := (Account.View.toJson_injective (Option.some.inj hview)).symm
  readable := Json.writes_pretty

theorem account_mem_notes {b : Brief} (h : b.accountWanted) :
    accountNote b.context.account ∈ notes b := by
  simp [notes, h]

theorem lays_user (b : Brief) : Lays b (user b) where
  parts := by
    refine ⟨_, _, _, _, _, shows_toJson b.context, .ite _, ?_, ?_, knows_sources .., rfl⟩
    · exact .unless (by simp) _
    · exact .unless (by simp) _
  account := account_mem_notes

end Advisor.Prompt
