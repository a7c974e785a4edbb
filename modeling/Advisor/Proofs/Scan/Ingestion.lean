import Advisor.Proofs.Json.Layout
import Advisor.Proofs.Json.OpenRecords
import Advisor.Scan.Context

/-!
A scan that a client sends is shown to the model without loss. What the client gave is in the text of the
prompt, and the text is read back as the context it was written from.
-/

namespace Advisor.Scan

open Json (Carries Document Fields Kept Preserves)
open Json.Decoder

variable {room room' : Nat} {d : Document}

namespace Row

def names : List String :=
  ["name", "buy_price", "sell_price", "profit", "profit_pct", "score", "volume", "risk", "extreme"]

variable {row : Row}

theorem kept (h : decoder room d = .ok row) : Kept room names d row.extra :=
  openRecord_kept (fun _ _ _ => rfl) (by simp) rfl h

theorem decoder_toJson (h : Kept room names d row.extra) (hroom : room ≤ room') :
    decoder room' (.ofJson row.toJson) = .ok row := by
  rw [decoder, toJson]
  refine openRecord_fills (lt_of_lt_of_le h.roomy hroom) (by simp [defaulted]) (by decide)
    (fun fs => { row with extra := fs }) rfl (fun _ _ _ => rfl) ?_
    (h.settled.mono (Nat.sub_le_sub_right hroom 1)) h.strange
  exact .cons (read_defaulted rfl) <| .cons (read_defaulted (option_double _)) <|
    .cons (read_defaulted (option_double _)) <| .cons (read_defaulted rfl) <|
    .cons (read_defaulted (option_double _)) <| .cons (read_defaulted (option_double _)) <|
    .cons (read_defaulted (option_double _)) <| .cons (read_defaulted (option_string rfl)) <|
    .cons (read_defaulted rfl) .nil

theorem preserves (h : decoder room d = .ok row) : Preserves (room - 1) names d row.toJson :=
  (kept h).preserves rfl (by decide)

end Row

namespace Summary

def names : List String :=
  ["visible_rows", "total_rows"]

variable {s : Summary}

theorem kept (h : decoder room d = .ok s) : Kept room names d s.extra :=
  openRecord_kept (fun _ _ _ => rfl) (by simp) rfl h

theorem counts_le (h : decoder room d = .ok s) :
    s.visibleRows ≤ 18446744073709551615 ∧ s.totalRows ≤ 18446744073709551615 := by
  have hbound (o : Option Document) (n : Nat) (ho : o.elim (.ok 0) (natural (room - 1)) = .ok n) :
      n ≤ 18446744073709551615 := by
    cases o with
    | none =>
        cases ho
        exact Nat.zero_le _
    | some d => exact natural_le ho
  have hvisible := recordObject_given "visible_rows" visibleRows h rfl (fun _ _ => rfl) (by simp)
    (Others.keeps_kept fun _ _ _ => rfl)
  have htotal := recordObject_given "total_rows" totalRows h rfl (fun _ _ => rfl) (by simp)
    (Others.keeps_kept fun _ _ _ => rfl)
  exact ⟨hbound _ _ hvisible, hbound _ _ htotal⟩

theorem decoder_toJson (h : decoder room d = .ok s) (hroom : room ≤ room') :
    decoder room' (.ofJson s.toJson) = .ok s := by
  have hkept := kept h
  obtain ⟨hvisible, htotal⟩ := counts_le h
  rw [decoder, toJson]
  refine openRecord_fills (lt_of_lt_of_le hkept.roomy hroom) (by simp [defaulted]) (by decide)
    (fun fs => { s with extra := fs }) rfl (fun _ _ _ => rfl) ?_
    (hkept.settled.mono (Nat.sub_le_sub_right hroom 1)) hkept.strange
  exact .cons (read_defaulted (natural_ofNat hvisible)) <|
    .cons (read_defaulted (natural_ofNat htotal)) .nil

theorem preserves (h : decoder room d = .ok s) : Preserves (room - 1) names d s.toJson :=
  (kept h).preserves rfl (by decide)

end Summary

namespace Context

def names : List String :=
  ["tab_id", "scan_id", "scan_snapshot", "summary", "rows"]

/-- What a client gives for a member of its context; null where it gives nothing. -/
def given (d : Document) (name : String) : Document :=
  (d.given? names name).getD .null

/-- A context that was read from a document, and what it is written as: the account is no one's, what is
written is read back as the context, from its text too, and each part of it has what the document gives. -/
structure Survives (room : Nat) (d : Document) (c : Context) (encoded : Json) : Prop where
  unread : c.account = .empty
  again : ∀ room', room ≤ room' → 3 ≤ room' →
    decoder room' (.ofJson encoded) = .ok { c with account := .empty }
  written : encoded.Legible → Document.read encoded.pretty.toList = (.ofJson encoded, some [])
  reread : encoded.Legible → room ≤ fullRoom →
    ofText decoder encoded.pretty = .ok { c with account := .empty }
  snapshot : ∃ v, encoded.get? "scan_snapshot" = some v ∧
    Preserves (room - 2) [] (given d "scan_snapshot") v
  summary : ∃ v, encoded.get? "summary" = some v ∧
    (given d "summary" = .null ∧ v = .null ∨
      Preserves (room - 2) Summary.names (given d "summary") v)
  rows : ∃ vs, encoded.get? "rows" = some (.arr vs) ∧
    List.Forall₂ (Preserves (room - 3) Row.names) (given d "rows").items vs

variable {c : Context}

theorem read_given {decode : Document → Except Json.Fault α} {name : String} {blank a : α}
    (h : (d.given? names name).elim (.ok blank) decode = .ok a) :
    decode (given d name) = .ok a ∨ given d name = .null ∧ a = blank := by
  unfold given
  cases hgiven : d.given? names name with
  | none =>
      rw [hgiven] at h
      cases h
      exact .inr ⟨rfl, rfl⟩
  | some part =>
      rw [hgiven] at h
      exact .inl h

theorem snapshot_settled (h : decoder room d = .ok c) :
    c.snapshot.Settled (room - 2) ∧ ∀ key, Carries (room - 2) (given d "scan_snapshot") c.snapshot key := by
  have hread := record_given "scan_snapshot" snapshot h rfl (fun _ _ => rfl) (by simp) (by decide)
  rcases read_given hread with hfields | ⟨hnull, hblank⟩
  · have hkept := fields_kept hfields
    exact ⟨hkept.settled, fun key => hkept.carries key List.not_mem_nil⟩
  · rw [hnull, hblank]
    exact ⟨.nil, fun _ => ⟨fun _ hunder => (by cases hunder), fun _ => List.not_mem_nil⟩⟩

theorem summary_read (h : decoder room d = .ok c) :
    option Summary.decoder (room - 1) (given d "summary") = .ok c.summary := by
  have hread := record_given "summary" summary h rfl (fun _ _ => rfl) (by simp) (by decide)
  rcases read_given hread with hsummary | ⟨hnull, hblank⟩
  · exact hsummary
  · rw [hnull, hblank]
    rfl

theorem rows_read (h : decoder room d = .ok c) :
    List.Forall₂ (fun d row => Row.decoder (room - 2) d = .ok row) (given d "rows").items c.rows := by
  have hread := record_given "rows" rows h rfl (fun _ _ => rfl) (by simp) (by decide)
  rcases read_given hread with hrows | ⟨hnull, hblank⟩
  · exact list_ok hrows
  · rw [hnull, hblank]
    exact .nil

theorem option_toJson (h : option Summary.decoder room d = .ok o) (hroom : room ≤ room') :
    option Summary.decoder room' (.ofJson (Json.ofOption Summary.toJson o)) = .ok o := by
  rcases option_ok h with ⟨_, rfl⟩ | ⟨s, hs, rfl⟩
  · rfl
  · change (Summary.decoder room' (.ofJson s.toJson)).map some = _
    rw [Summary.decoder_toJson hs hroom]
    rfl

theorem rows_toJson {ds : List Document} {rows : List Row}
    (h : List.Forall₂ (fun d row => Row.decoder room d = .ok row) ds rows) (hroom : room ≤ room') :
    List.Forall₂ (fun row v => Row.decoder room' (.ofJson v) = .ok row) rows (rows.map Row.toJson) := by
  induction h with
  | nil => exact .nil
  | cons hrow _ ih => exact .cons (Row.decoder_toJson (Row.kept hrow) hroom) ih

def own (c : Context) : List (String × Json) :=
  [("tab_id", .ofOption .str c.tabId), ("scan_id", .ofOption .str c.scanId),
    ("scan_snapshot", .obj c.snapshot), ("summary", .ofOption Summary.toJson c.summary),
    ("rows", .arr (c.rows.map Row.toJson))]

theorem toJson_eq (c : Context) : c.toJson = .obj (c.own ++ [("runtime", c.account.toJson)]) :=
  rfl

theorem decoder_toJson (h : decoder room d = .ok c) (hroom : room ≤ room') (hthree : 3 ≤ room')
    (account : Account.View) :
    decoder room' (.ofJson { c with account := account }.toJson) =
      .ok { c with account := .empty } := by
  have hinside : 1 < room' - 1 := by omega
  have hsnapshot := (snapshot_settled h).1.mono (show room - 2 ≤ room' - 1 - 1 by omega)
  have hsummary := option_toJson (summary_read h) (show room - 1 ≤ room' - 1 by omega)
  have hrows := rows_toJson (rows_read h) (show room - 2 ≤ room' - 1 - 1 by omega)
  rw [toJson_eq]
  refine record_fills (by omega) (by simp [defaulted]) (by decide) ?_ (by simp)
  exact .cons (read_defaulted (option_string rfl)) <| .cons (read_defaulted (option_string rfl)) <|
    .cons (read_defaulted (fields_ofJson hinside hsnapshot)) <| .cons (read_defaulted hsummary) <|
    .cons (read_defaulted (list_ofItems hinside hrows)) .nil

/-- What a client sends of its scan survives, whatever account it is shown with. -/
theorem survives (h : decoder room d = .ok c) (account : Account.View) :
    Survives room d c { c with account := account }.toJson where
  unread := record_keeps h (by simp)
  again _ hroom hthree := decoder_toJson h hroom hthree account
  written hlegible := Json.read_pretty hlegible
  reread hlegible hroom := by
    rw [(Json.writes_pretty hlegible).ofText decoder]
    exact decoder_toJson h hroom (by decide) account
  snapshot := by
    obtain ⟨hsettled, hcarries⟩ := snapshot_settled h
    exact ⟨_, rfl, c.snapshot, rfl, hsettled.nodup, fun key _ => hcarries key⟩
  summary := by
    refine ⟨_, rfl, ?_⟩
    rcases option_ok (summary_read h) with ⟨hnull, hnone⟩ | ⟨s, hs, hsome⟩
    · rw [hnone]
      exact .inl ⟨hnull, rfl⟩
    · rw [hsome]
      exact .inr (Summary.preserves hs)
  rows := by
    refine ⟨_, rfl, List.forall₂_map_right_iff.2 ?_⟩
    exact (rows_read h).imp fun _ _ hrow => Row.preserves hrow

end Context

def tiered : Document :=
  .obj [
    (some "tab_id", .str (some "scanner")),
    (some "scan_snapshot", .obj [(some "market", .str (some "steam"))] true),
    (some "summary", .obj [(some "currency", .str (some "USD")),
      (some "total_rows", .num (some (.whole 40)))] true),
    (some "rows", .arr [.obj [(some "tier", .str (some "A")),
      (some "profit", .num (some (.double 3.5))),
      (some "name", .str (some "AK-47 | Redline"))] true] true),
    (some "runtime", .obj [(some "available", .bool true)] true)] true

def tieredContext : Context where
  tabId := some "scanner"
  scanId := none
  snapshot := [("market", .str "steam")]
  summary := some ⟨0, 40, [("currency", .str "USD")]⟩
  rows := [⟨"AK-47 | Redline", none, none, 3.5, none, none, none, none, false, [("tier", .str "A")]⟩]
  account := .empty

theorem legible_num {n : Json.Number}
    (h : (Document.scanNumber n.text.toList).map (fun r => (r.1.number?, r.2)) = some (some n, [])) :
    Json.Legible (.num n) := by
  obtain ⟨⟨l, rest⟩, hscan, hread⟩ := Option.map_eq_some_iff.1 h
  obtain ⟨hnumber, rfl⟩ := Prod.mk.inj hread
  exact ⟨l, hscan, hnumber⟩

theorem legible_tiered :
    { tieredContext with account := .unavailable "no session" }.toJson.Legible := by
  have hprofit : Json.Legible (.ofFloat 3.5) := legible_num (by decide +kernel)
  have hzero : Json.Legible (.ofNat 0) := ⟨_, rfl, rfl⟩
  have hforty : Json.Legible (.ofNat 40) := ⟨_, rfl, rfl⟩
  simp [tieredContext, Context.toJson, Summary.toJson, Row.toJson, Account.View.toJson,
    Account.View.unavailable, Account.View.empty, Account.member?, Json.ofOption, Json.Legible,
    Json.LegibleItems, Json.LegibleMembers, hprofit, hzero, hforty]

theorem tiered_survives :
    Context.decoder fullRoom tiered = .ok tieredContext ∧
      { tieredContext with account := .unavailable "no session" }.toJson.Legible ∧
      Context.Survives fullRoom tiered tieredContext
        { tieredContext with account := .unavailable "no session" }.toJson :=
  ⟨rfl, legible_tiered, Context.survives rfl _⟩

end Advisor.Scan
