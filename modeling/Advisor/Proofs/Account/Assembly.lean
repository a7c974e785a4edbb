import Advisor.Account.Lookup
import Advisor.Proofs.Dialogue.Asking
import Advisor.Proofs.Dialogue.Succession
import Advisor.Proofs.Distinct
import Mathlib.Data.List.Perm.Basic

namespace Advisor.Account

open Dialogue

theorem firstOfEach_append {ν : Type} {before kept : List (Transaction ν)} {seen : List String}
    (h : FirstOfEach Transaction.id before kept)
    (hseen : ∀ id, id ∈ seen ↔ id ∈ before.map Transaction.id) (ts : List (Transaction ν)) :
    FirstOfEach Transaction.id (before ++ ts) (kept ++ dedupe seen ts) := by
  induction ts generalizing before kept seen with
  | nil => simpa [dedupe] using h
  | cons t ts ih =>
      rw [dedupe, List.append_cons]
      by_cases ht : t.id ∈ seen
      · rw [if_pos (by simpa using ht)]
        refine ih (h.again ((hseen _).1 ht)) fun id => ?_
        rw [List.map_append, List.mem_append, ← hseen]
        refine ⟨.inl, ?_⟩
        rintro (hid | hid)
        · exact hid
        · rwa [List.mem_singleton.1 hid]
      · rw [if_neg (by simpa using ht), List.append_cons kept]
        refine ih (h.first (mt (hseen _).2 ht)) fun id => ?_
        rw [List.map_append, List.mem_append, ← hseen, List.mem_cons, List.map_singleton,
          List.mem_singleton, or_comm]

theorem firstOfEach_dedupe {ν : Type} (ts : List (Transaction ν)) :
    FirstOfEach Transaction.id ts (dedupe [] ts) :=
  firstOfEach_append .nil (fun _ => by simp) ts

/-- What a fetch of transactions is taken for: a failure, or the first transaction of every id. -/
inductive TakenOnce : Except Failure (List (Transaction Float)) →
    Except Failure (List (Transaction Float)) → Prop
  | failed (why : Failure) : TakenOnce (.error why) (.error why)
  | came (h : FirstOfEach Transaction.id fetched ts) : TakenOnce (.ok fetched) (.ok ts)

theorem takenOnce_map (fetched : Except Failure (List (Transaction Float))) :
    TakenOnce fetched (fetched.map (dedupe [])) := by
  cases fetched with
  | error why => exact .failed why
  | ok ts => exact .came (firstOfEach_dedupe ts)

namespace Part

/-! What a part brings to a view, by itself. -/

def wallet? : Part → Option Wallet
  | .wallet result => result.toOption
  | _ => none

def orders? : Part → Option (List (Order Float))
  | .orders result => result.toOption
  | _ => none

def transactions? : Part → Option (List (Transaction Float))
  | .transactions result => result.toOption
  | _ => none

/-- A part that could not be had is noted. -/
def note? (locale : Locale) : Part → Option String
  | .wallet (.error _) =>
      some (locale.pick "Wallet balance unavailable." "Баланс кошелька недоступен.")
  | .orders (.error _) =>
      some (locale.pick "Active orders unavailable." "Активные ордера недоступны.")
  | .transactions (.error _) =>
      some (locale.pick "Transaction history unavailable." "История транзакций недоступна.")
  | _ => none

end Part

namespace View

theorem absorb_eq (locale : Locale) (now : Timestamp) (v : View) (part : Part) :
    v.absorb locale now part =
      { v with
        wallet := part.wallet?.or v.wallet
        orders := (part.orders?.map orderFigures).or v.orders
        flow := (part.transactions?.map (Account.flow · now)).or v.flow
        risk := (part.transactions?.map (Account.risk · now)).or v.risk
        notes := v.notes ++ (part.note? locale).toList } := by
  rcases part with (_ | _) | (_ | _) | (_ | _) <;>
    simp [absorb, noted, Part.wallet?, Part.orders?, Part.transactions?, Part.note?,
      Except.toOption]

def absorbed (locale : Locale) (today : Timestamp) (v : View) (parts : List Part) : View :=
  let ts := parts.reverse.findSome? Part.transactions?
  { v with
    wallet := (parts.reverse.findSome? Part.wallet?).or v.wallet
    orders := ((parts.reverse.findSome? Part.orders?).map orderFigures).or v.orders
    flow := (ts.map (Account.flow · today)).or v.flow
    risk := (ts.map (Account.risk · today)).or v.risk
    notes := v.notes ++ parts.filterMap (Part.note? locale) }

theorem absorbed_nil (locale : Locale) (today : Timestamp) (v : View) :
    v.absorbed locale today [] = v := by
  simp [absorbed]

theorem absorb_absorbed (locale : Locale) (now today : Timestamp) (v : View) (part : Part)
    (rest : List Part) :
    (v.absorb locale now part).absorbed locale today rest =
      v.absorbed locale (if rest.reverse.findSome? Part.transactions? = none then now else today)
        (part :: rest) := by
  have hnotes : (part :: rest).filterMap (Part.note? locale) =
      (part.note? locale).toList ++ rest.filterMap (Part.note? locale) := by
    cases hnote : part.note? locale <;> simp [hnote]
  rw [absorb_eq]
  cases hrest : rest.reverse.findSome? Part.transactions? with
  | none => simp [absorbed, hrest, hnotes, Option.or_assoc, Option.map_or]
  | some ts => simp [absorbed, hrest, hnotes, Option.or_assoc, Option.map_or]

end View

def fetched? : Bool × Part → Option (List (Transaction Float))
  | (true, part) => part.transactions?
  | (false, _) => none

/-- What is remembered of an account when so much of it has been fetched. -/
def kept (accountId : String) (now : Nat) (m : Memory) : Option (List (Transaction Float)) → Memory
  | some ts => m.store now (.transactions accountId) ts
  | none => m

variable {w : World σ} {s t : Scene σ} {accountId token : String} {locale : Locale}

theorem run_takePart (w : World σ) (s : Scene σ) (v : View) (item : Bool × Part) :
    (takePart accountId locale v item).run w s =
      (some (v.absorb locale (w.today s.outside) item.2),
        { s with memory := kept accountId (w.instant s.outside) s.memory (fetched? item) }) := by
  rcases item with ⟨_ | _, (_ | _) | (_ | _) | (_ | _)⟩ <;> rfl

/-- The parts as they come change the view as a whole, whose figures are of a moment on the way. -/
theorem run_takeParts {items : List (Lapse × Bool × Part)} {v v' : View}
    (h : (takeEach (takePart accountId locale) elapsed v items).run w s = (some (total, v'), t)) :
    t.acts = s.acts ∧ ∃ x, w.Leads s.outside x ∧ w.Leads x t.outside ∧
      v' = v.absorbed locale (w.today x) (items.map (·.2.2)) := by
  induction items generalizing elapsed v s with
  | nil =>
      obtain ⟨hv, rfl⟩ := run_pure h
      cases hv
      exact ⟨rfl, s.outside, .refl, .refl, (View.absorbed_nil ..).symm⟩
  | cons item rest ih =>
      obtain ⟨lapse, item⟩ := item
      obtain ⟨outside, taken, u, hpass, htake, hrest⟩ := run_takeEach_cons h
      rw [run_takePart] at htake
      cases htake
      obtain ⟨hacts, x, hx, hxt, rfl⟩ := ih hrest
      have hs : w.Leads s.outside outside := .single (.pass hpass)
      refine ⟨hacts, ?_⟩
      rw [List.map_cons, View.absorb_absorbed]
      by_cases hlast : (rest.map (·.2.2)).reverse.findSome? Part.transactions? = none
      · exact ⟨outside, hs, hx.trans hxt, by rw [if_pos hlast]⟩
      · exact ⟨x, hs.trans hx, hxt, by rw [if_neg hlast]⟩

theorem memory_of_takeParts {items : List (Lapse × Bool × Part)} {v : View} {r : Nat × View}
    {fetched : Option (List (Transaction Float))}
    (h : (takeEach (takePart accountId locale) elapsed v items).run w s = (some r, t))
    (hfetched : (items.map (·.2)).filterMap fetched? = fetched.toList) :
    ∃ x, w.Leads s.outside x ∧ w.Leads x t.outside ∧
      t.memory = kept accountId (w.instant x) s.memory fetched := by
  induction items generalizing elapsed v s fetched with
  | nil =>
      obtain ⟨_, rfl⟩ := run_pure h
      cases fetched with
      | none => exact ⟨s.outside, .refl, .refl, rfl⟩
      | some ts => simp at hfetched
  | cons item rest ih =>
      obtain ⟨lapse, item⟩ := item
      obtain ⟨outside, taken, u, hpass, htake, hrest⟩ := run_takeEach_cons h
      rw [run_takePart] at htake
      cases htake
      have hs : w.Leads s.outside outside := .single (.pass hpass)
      cases hitem : fetched? item with
      | none =>
          simp only [hitem] at hrest
          obtain ⟨x, hx, hxt, hmemory⟩ := ih hrest (by simpa [hitem] using hfetched)
          exact ⟨x, hs.trans hx, hxt, hmemory⟩
      | some ts =>
          simp only [hitem] at hrest
          cases fetched with
          | none => simp [hitem] at hfetched
          | some ts' =>
              obtain ⟨rfl, hnone⟩ : ts = ts' ∧
                  (rest.map (·.2)).filterMap fetched? = (none : Option _).toList := by
                simpa [hitem] using hfetched
              obtain ⟨x, hx, hxt, hmemory⟩ := ih hrest hnone
              exact ⟨outside, hs, hx.trans hxt, hmemory⟩

theorem run_transactions {item : Lapse × Bool × Part}
    (h : (transactions accountId token).run w s = (some item, t)) :
    (∃ ts, s.memory.get? (w.instant s.outside) (.transactions accountId) = some ts ∧
        item = (.zero, false, .transactions (.ok ts)) ∧ t = s) ∨
      ∃ arrival : Arrival (List (Transaction Float)),
        s.memory.get? (w.instant s.outside) (.transactions accountId) = none ∧
        item = (arrival.lapse, true, .transactions (arrival.result.map (dedupe []))) ∧
        t.acts = s.acts ++ [.asked (.transactions accountId token) arrival] ∧
        t.memory = s.memory := by
  obtain ⟨remembered, u, hread, h⟩ := run_bind_some h
  obtain ⟨hremembered, rfl⟩ := run_remembered hread
  cases remembered with
  | some ts =>
      obtain ⟨rfl, rfl⟩ := run_pure h
      exact .inl ⟨ts, hremembered.symm, rfl, rfl⟩
  | none =>
      obtain ⟨arrival, u, hput, h⟩ := run_bind_some h
      obtain ⟨rfl, rfl⟩ := run_pure h
      obtain ⟨hacts, hmemory⟩ := run_put hput
      exact .inr ⟨arrival, hremembered.symm, rfl, hacts, hmemory⟩

/-- The fetches of one look at an account: when each was there, and what it brought. Of the
transactions each stands once. -/
structure Fetches where
  wallet : Arrival Wallet
  orders : Arrival (List (Order Float))
  transactions : Arrival (List (Transaction Float))

namespace Fetches

def parts (f : Fetches) : List (Lapse × Part) :=
  [(f.wallet.lapse, .wallet f.wallet.result), (f.orders.lapse, .orders f.orders.result),
    (f.transactions.lapse, .transactions f.transactions.result)]

def view (f : Fetches) (locale : Locale) (accountId : String) (today : Timestamp) : View where
  available := f.wallet.result.isOk || f.orders.result.isOk || f.transactions.result.isOk
  accountId := some accountId
  wallet := f.wallet.result.toOption
  orders := f.orders.result.toOption.map orderFigures
  flow := f.transactions.result.toOption.map (Account.flow · today)
  risk := f.transactions.result.toOption.map (Account.risk · today)
  notes := (inArrivalOrder f.parts).filterMap (·.2.note? locale)

theorem filterMap_of_perm {items items' : List α} (hp : items.Perm items') {f : α → Option β}
    {brought : Option β} (hf : items'.filterMap f = brought.toList) :
    items.filterMap f = brought.toList := by
  have hperm : (items.filterMap f).Perm brought.toList := hf ▸ hp.filterMap f
  cases brought with
  | none => exact List.perm_nil.1 hperm
  | some b => exact List.perm_singleton.1 hperm

theorem findSome?_of_perm {items items' : List α} (hp : items.Perm items') {f : α → Option β}
    {brought : Option β} (hf : items'.filterMap f = brought.toList) :
    items.reverse.findSome? f = brought := by
  rw [← List.head?_filterMap, filterMap_of_perm ((List.reverse_perm items).trans hp) hf]
  cases brought <;> rfl

def arrivals (f : Fetches) (asked : Bool) : List (Lapse × Bool × Part) :=
  [(f.wallet.lapse, false, .wallet f.wallet.result),
    (f.orders.lapse, false, .orders f.orders.result),
    (f.transactions.lapse, asked, .transactions f.transactions.result)]

theorem map_arrivals (f : Fetches) (asked : Bool) :
    (inArrivalOrder (f.arrivals asked)).map (·.2.2) = (inArrivalOrder f.parts).map (·.2) := by
  have hparts : (f.arrivals asked).map (fun item => (item.1, item.2.2)) = f.parts := rfl
  rw [← hparts, inArrivalOrder, inArrivalOrder,
    ← List.map_mergeSort (r := fun a b : Lapse × Bool × Part => decide (a.1.ms ≤ b.1.ms))
      (fun _ _ _ _ => rfl),
    List.map_map]
  rfl

theorem judged_arrivals (f : Fetches) (asked : Bool) (today : Timestamp) :
    (View.absorbed locale today { View.empty with accountId := some accountId }
      ((inArrivalOrder (f.arrivals asked)).map (·.2.2))).judged =
      f.view locale accountId today := by
  have hnotes : ((inArrivalOrder (f.arrivals asked)).map (·.2.2)).filterMap (Part.note? locale) =
      (f.view locale accountId today).notes := by
    rw [map_arrivals, List.filterMap_map]
    rfl
  have hp : ((inArrivalOrder (f.arrivals asked)).map (·.2.2)).Perm
      ((f.arrivals asked).map (·.2.2)) := (List.mergeSort_perm _ _).map _
  generalize (inArrivalOrder (f.arrivals asked)).map (·.2.2) = parts at hp hnotes
  obtain ⟨⟨_, wallet⟩, ⟨_, orders⟩, ⟨_, ts⟩⟩ := f
  have hwallet : parts.reverse.findSome? Part.wallet? = wallet.toOption :=
    findSome?_of_perm hp (by cases wallet <;> rfl)
  have horders : parts.reverse.findSome? Part.orders? = orders.toOption :=
    findSome?_of_perm hp (by cases orders <;> rfl)
  have hts : parts.reverse.findSome? Part.transactions? = ts.toOption :=
    findSome?_of_perm hp (by cases ts <;> rfl)
  simp only [View.absorbed, View.judged, View.empty, hwallet, horders, hts, hnotes, Option.or_none,
    List.nil_append]
  cases wallet <;> cases orders <;> cases ts <;> rfl

theorem fetched_arrivals (f : Fetches) (asked : Bool) :
    ((inArrivalOrder (f.arrivals asked)).map (·.2)).filterMap fetched? =
      (if asked then f.transactions.result.toOption else none).toList := by
  have hp : ((inArrivalOrder (f.arrivals asked)).map (·.2)).Perm ((f.arrivals asked).map (·.2)) :=
    (List.mergeSort_perm _ _).map _
  refine filterMap_of_perm hp ?_
  obtain ⟨⟨_, wallet⟩, ⟨_, orders⟩, ⟨_, ts⟩⟩ := f
  cases asked <;> cases ts <;> rfl

end Fetches

/-- How the transactions were come by: they were remembered, or they were asked for and kept. -/
inductive Source (w : World σ) (accountId token : String) (s t : Scene σ) :
    Arrival (List (Transaction Float)) → List Act → Prop
  | memory (hx : w.Leads s.outside x) (hxt : w.Leads x t.outside)
      (hknown : s.memory.get? (w.instant x) (.transactions accountId) = some ts)
      (hkept : t.memory = s.memory) : Source w accountId token s t (.now (.ok ts)) []
  | service (arrival : Arrival (List (Transaction Float)))
      (hx : w.Leads s.outside x) (hy : w.Leads x y) (hyt : w.Leads y t.outside)
      (hunknown : s.memory.get? (w.instant x) (.transactions accountId) = none)
      (hkept : t.memory =
        kept accountId (w.instant y) s.memory (arrival.result.toOption.map (dedupe []))) :
      Source w accountId token s t ⟨arrival.lapse, arrival.result.map (dedupe [])⟩
        [.asked (.transactions accountId token) arrival]

theorem run_consult (h : (consult accountId token locale).run w s = (some v, t)) :
    ∃ (f : Fetches) (acts : List Act) (x : σ),
      t.acts = s.acts ++ ([.asked (.wallet accountId token) f.wallet,
        .asked (.orders accountId token) f.orders] ++ acts) ∧
      w.Leads s.outside x ∧ w.Leads x t.outside ∧ v = f.view locale accountId (w.today x) ∧
      Source w accountId token s t f.transactions acts := by
  obtain ⟨wallet, s₁, hwallet, h⟩ := run_bind_some h
  obtain ⟨orders, s₂, horders, h⟩ := run_bind_some h
  obtain ⟨item, s₃, htransactions, h⟩ := run_bind_some h
  obtain ⟨⟨total, taken⟩, s₄, htake, h⟩ := run_bind_some h
  obtain ⟨rfl, rfl⟩ := run_pure h
  have hlead₂ := (leads_of_run hwallet).trans (leads_of_run horders)
  have hlead₃ := hlead₂.trans (leads_of_run htransactions)
  obtain ⟨hacts₁, hmemory₁⟩ := run_put hwallet
  obtain ⟨hacts₂, hmemory₂⟩ := run_put horders
  obtain ⟨hacts₄, x, hx, hxt, rfl⟩ := run_takeParts htake
  obtain ⟨ts, hknown, rfl, rfl⟩ | ⟨arrival, hunknown, rfl, hacts₃, hmemory₃⟩ :=
    run_transactions htransactions
  · let f : Fetches := ⟨wallet, orders, .now (.ok ts)⟩
    obtain ⟨y, hy, hyt, hkept⟩ := memory_of_takeParts htake (f.fetched_arrivals false)
    refine ⟨f, [], x, by simp [hacts₄, hacts₂, hacts₁, f], hlead₃.trans hx, hxt,
      f.judged_arrivals false _, ?_⟩
    rw [hmemory₂, hmemory₁] at hknown hkept
    exact .memory hlead₂ (hx.trans hxt) hknown hkept
  · let f : Fetches := ⟨wallet, orders, ⟨arrival.lapse, arrival.result.map (dedupe [])⟩⟩
    obtain ⟨y, hy, hyt, hkept⟩ := memory_of_takeParts htake (f.fetched_arrivals true)
    refine ⟨f, [.asked (.transactions accountId token) arrival], x,
      by simp [hacts₄, hacts₃, hacts₂, hacts₁, f], hlead₃.trans hx, hxt,
      f.judged_arrivals true _, ?_⟩
    rw [hmemory₂, hmemory₁] at hunknown
    rw [hmemory₃, hmemory₂, hmemory₁] at hkept
    have hdeduped : (arrival.result.map (dedupe [])).toOption =
        arrival.result.toOption.map (dedupe []) := by cases arrival.result <;> rfl
    exact .service arrival hlead₂ ((leads_of_run htransactions).trans hy) hyt hunknown
      (hdeduped ▸ hkept)

/-- How a look at the account goes. Who is signed in, and with what token, is asked before anything
of the account is. -/
inductive Looked (w : World σ) (locale : Locale) (s t : Scene σ) : List Act → View → Prop
  | unresolved (session : Arrival (Option Session))
      (hnobody : ∀ who, session.result ≠ .ok (some who)) (hkept : t.memory = s.memory)
      (note : String) :
      Looked w locale s t [.asked .session session] (.unavailable note)
  | expired (session : Arrival (Option Session)) (who : Session)
      (hwho : session.result = .ok (some who)) (token : Arrival String)
      (hfailed : token.result = .error why) (hkept : t.memory = s.memory) (note : String) :
      Looked w locale s t [.asked .session session, .asked (.accessToken who) token]
        { View.unavailable note with accountId := some who.accountId }
  | consulted (session : Arrival (Option Session)) (who : Session)
      (hwho : session.result = .ok (some who)) (arrival : Arrival String) (token : String)
      (htoken : arrival.result = .ok token) (f : Fetches)
      (hx : w.Leads s.outside x) (hxt : w.Leads x t.outside)
      (hsource : Source w who.accountId token s t f.transactions acts) :
      Looked w locale s t
        ([.asked .session session, .asked (.accessToken who) arrival] ++
          [.asked (.wallet who.accountId token) f.wallet,
            .asked (.orders who.accountId token) f.orders] ++ acts)
        (f.view locale who.accountId (w.today x))

theorem Source.mono (hs : w.Leads s.outside u.outside) (hm : u.memory = s.memory)
    (h : Source w accountId token u t arrival acts) :
    Source w accountId token s t arrival acts := by
  cases h with
  | memory hx hxt hknown hkept => exact .memory (hs.trans hx) hxt (hm ▸ hknown) (hm ▸ hkept)
  | service arrival hx hy hyt hunknown hkept =>
      exact .service arrival (hs.trans hx) hy hyt (hm ▸ hunknown) (hm ▸ hkept)

theorem run_lookup {v : View} (h : (lookup locale).run w s = (some v, t)) :
    ∃ acts, t.acts = s.acts ++ acts ∧ Looked w locale s t acts v := by
  obtain ⟨session, s₁, hsession, h⟩ := run_bind_some h
  obtain ⟨lapse, hacts₁, hmemory₁⟩ := run_await hsession
  have hlead₁ := leads_of_run hsession
  match session, h with
  | .ok none, h =>
      obtain ⟨rfl, rfl⟩ := run_pure h
      exact ⟨_, hacts₁, .unresolved _ (by simp) hmemory₁ _⟩
  | .error why, h =>
      obtain ⟨rfl, rfl⟩ := run_pure h
      exact ⟨_, hacts₁, .unresolved _ (by simp) hmemory₁ _⟩
  | .ok (some who), h =>
      obtain ⟨token, s₂, htoken, h⟩ := run_bind_some h
      obtain ⟨lapse', hacts₂, hmemory₂⟩ := run_await htoken
      rw [hacts₁] at hacts₂
      rw [hmemory₁] at hmemory₂
      have hlead₂ := hlead₁.trans (leads_of_run htoken)
      cases token with
      | error why =>
          obtain ⟨rfl, rfl⟩ := run_pure h
          exact ⟨_, by simpa using hacts₂, .expired _ who rfl _ rfl hmemory₂ _⟩
      | ok token =>
          obtain ⟨f, acts, x, hacts, hx, hxt, rfl, hsource⟩ := run_consult h
          exact ⟨_, by simp [hacts, hacts₂], .consulted ⟨lapse, _⟩ who rfl ⟨lapse', _⟩ token rfl f
            (hlead₂.trans hx) hxt (hsource.mono hlead₂ hmemory₂)⟩

/-- What is remembered of an account has each transaction once. -/
def EachOnce (m : Memory) : Prop :=
  ∀ entry ∈ m.transactions.entries, ∃ fetched, FirstOfEach Transaction.id fetched entry.2.2

theorem eachOnce_empty : EachOnce .empty := by
  simp [EachOnce, Memory.empty, Cache.empty]

theorem EachOnce.known {m : Memory} (hm : EachOnce m) {now : Nat} {ts : List (Transaction Float)}
    (h : m.get? now (.transactions accountId) = some ts) :
    ∃ fetched, FirstOfEach Transaction.id fetched ts := by
  simp only [Memory.get?, Cache.get?] at h
  split at h
  case h_1 expires value hlookup =>
      split at h
      · cases h
        obtain ⟨_, _, hentries, _⟩ := List.lookup_eq_some_iff.1 hlookup
        exact hm (accountId, expires, _) (by simp [hentries])
      · cases h
  case h_2 => cases h

theorem EachOnce.kept {m : Memory} (hm : EachOnce m) (now : Nat)
    (fetched : Option (List (Transaction Float))) :
    EachOnce (kept accountId now m (fetched.map (dedupe []))) := by
  cases fetched with
  | none => exact hm
  | some ts =>
      rintro entry (_ | ⟨_, hentry⟩)
      · exact ⟨ts, firstOfEach_dedupe ts⟩
      · exact hm entry (List.mem_of_mem_filter hentry)

def Fetches.Alike (f g : Fetches) : Prop :=
  f.wallet.result = g.wallet.result ∧ f.orders.result = g.orders.result ∧
    f.transactions.result = g.transactions.result

theorem Fetches.Alike.view {f g : Fetches} (h : f.Alike g) (accountId : String)
    (today : Timestamp) :
    g.view locale accountId today =
        { f.view locale accountId today with notes := (g.view locale accountId today).notes } ∧
      (f.view locale accountId today).notes.Perm (g.view locale accountId today).notes := by
  obtain ⟨hwallet, horders, htransactions⟩ := h
  refine ⟨by simp [Fetches.view, hwallet, horders, htransactions], ?_⟩
  have hparts : f.parts.map (·.2) = g.parts.map (·.2) := by
    simp [parts, hwallet, horders, htransactions]
  have hnotes (f : Fetches) : (f.view locale accountId today).notes.Perm
      ((f.parts.map (·.2)).filterMap (Part.note? locale)) := by
    rw [List.filterMap_map]
    exact (List.mergeSort_perm _ _).filterMap _
  exact (hnotes f).trans (hparts ▸ (hnotes g).symm)

/-- Whatever the three fetches bring, and in whatever order, the view has it: a failure is noted
when it comes, and takes nothing else away. Without a session and a token nothing is fetched. -/
theorem lookup_takes_in_each_fetch {w : World σ} {s : Scene σ} (hs : EachOnce s.memory)
    (locale : Locale) :
    (((lookup locale).run w s).1 = none → w.Abandons) ∧
    (∀ v t, (lookup locale).run w s = (some v, t) →
      EachOnce t.memory ∧ ∃ acts, t.acts = s.acts ++ acts ∧
      ((∃ (session : Session) (token : String) (lapse lapse' : Lapse) (f : Fetches)
          (fetched : Except Failure (List (Transaction Float))) (rest : List Act) (x : σ),
          acts = [.asked .session ⟨lapse, .ok (some session)⟩,
            .asked (.accessToken session) ⟨lapse', .ok token⟩,
            .asked (.wallet session.accountId token) f.wallet,
            .asked (.orders session.accountId token) f.orders] ++ rest ∧
          TakenOnce fetched f.transactions.result ∧
          (rest = [.asked (.transactions session.accountId token) ⟨f.transactions.lapse, fetched⟩] ∨
            rest = [] ∧ ∃ known y, f.transactions = ⟨.zero, .ok known⟩ ∧
              w.Leads s.outside y ∧ w.Leads y t.outside ∧
              s.memory.get? (w.instant y) (.transactions session.accountId) = some known) ∧
          w.Leads s.outside x ∧ w.Leads x t.outside ∧
          v = f.view locale session.accountId (w.today x)) ∨
        (v.available = false ∧ (∃ note, v.notes = [note]) ∧
          ((∃ session : Arrival (Option Session), acts = [.asked .session session] ∧
              ∀ who, session.result ≠ .ok (some who)) ∨
            ∃ (session : Session) (lapse : Lapse) (token : Arrival String),
              acts = [.asked .session ⟨lapse, .ok (some session)⟩,
                .asked (.accessToken session) token] ∧
              ∀ known, token.result ≠ .ok known)))) ∧
    ∀ f g : Fetches, f.Alike g → ∀ accountId today,
      g.view locale accountId today =
          { f.view locale accountId today with notes := (g.view locale accountId today).notes } ∧
        (f.view locale accountId today).notes.Perm (g.view locale accountId today).notes := by
  refine ⟨run_abandoned, fun v t hrun => ?_, fun f g => Fetches.Alike.view⟩
  obtain ⟨acts, hacts, hlooked⟩ := run_lookup hrun
  cases hlooked with
  | unresolved session hnobody hkept note =>
      exact ⟨hkept ▸ hs, _, hacts, .inr ⟨rfl, ⟨note, rfl⟩, .inl ⟨session, rfl, hnobody⟩⟩⟩
  | expired session who hwho token hfailed hkept note =>
      obtain ⟨lapse, _⟩ := session
      cases hwho
      exact ⟨hkept ▸ hs, _, hacts, .inr ⟨rfl, ⟨note, rfl⟩,
        .inr ⟨who, lapse, token, rfl, by simp [hfailed]⟩⟩⟩
  | consulted session who hwho arrival token htoken f hx hxt hsource =>
      obtain ⟨lapse, _⟩ := session
      obtain ⟨lapse', _⟩ := arrival
      cases hwho
      cases htoken
      obtain ⟨wallet, orders, ts⟩ := f
      cases hsource with
      | memory hy hyt hknown hkept =>
          obtain ⟨fetched, hfirst⟩ := hs.known hknown
          exact ⟨hkept ▸ hs, _, hacts, .inl ⟨who, token, lapse, lapse', _, .ok fetched, [], _,
            rfl, .came hfirst, .inr ⟨rfl, _, _, rfl, hy, hyt, hknown⟩, hx, hxt, rfl⟩⟩
      | service arrival hy hz hzt hunknown hkept =>
          exact ⟨hkept ▸ hs.kept _ _, _, hacts, .inl ⟨who, token, lapse, lapse', _,
            arrival.result, _, _, rfl, takenOnce_map _, .inl rfl, hx, hxt, rfl⟩⟩

def Fetches.late : Fetches where
  wallet := ⟨⟨30, false⟩, .error (.account "down")⟩
  orders := ⟨⟨20, false⟩, .ok []⟩
  transactions := ⟨⟨10, false⟩, .error (.account "down")⟩

def fetching (f : Fetches) : World Unit where
  answer
    | .session, s => (.now (.ok (some ⟨"acc-1", "refresh"⟩)), s)
    | .accessToken _, s => (.now (.ok "token"), s)
    | .wallet _ _, s => (f.wallet, s)
    | .orders _ _, s => (f.orders, s)
    | .transactions _ _, s => (f.transactions, s)
    | .completion _, s | .stream _, s | .index _ _ _ _ _, s | .page _ _, s | .overview, s |
      .search _ _, s => (.now (.error (.io "unreachable")), s)
  pass _ s := some s
  hear _ s := some (true, s)
  today _ := ⟨0, 0⟩
  instant _ := 0

theorem lookup_takes_in_late_wallet :
    EachOnce .empty ∧ ∃ v t, (lookup .en).run (fetching .late) ⟨(), .empty, []⟩ = (some v, t) ∧
      v.available = true ∧
      v.notes = ["Transaction history unavailable.", "Wallet balance unavailable."] ∧
      EachOnce t.memory := by
  have horder : inArrivalOrder (Fetches.late.arrivals true) =
      [(⟨10, false⟩, true, .transactions (.error (.account "down"))),
        (⟨20, false⟩, false, .orders (.ok [])),
        (⟨30, false⟩, false, .wallet (.error (.account "down")))] := by
    simp [inArrivalOrder, Fetches.arrivals, Fetches.late, List.mergeSort]
  obtain ⟨v, t, hrun, hv⟩ := exists_of_run (w := fetching .late) (s := ⟨(), .empty, []⟩)
    (d := lookup .en) (fun v => v.available ∧
      v.notes = ["Transaction history unavailable.", "Wallet balance unavailable."]) (by
    change Option.any _ ((takeEach (takePart "acc-1" .en) 0 _
      (inArrivalOrder (Fetches.late.arrivals true)) >>= fun r => pure r.2.judged).run _ _).1 = true
    rw [horder]
    decide +kernel)
  obtain ⟨havailable, hnotes⟩ := of_decide_eq_true hv
  exact ⟨eachOnce_empty, v, t, hrun, havailable, hnotes,
    ((lookup_takes_in_each_fetch eachOnce_empty .en).2.1 v t hrun).1⟩

end Advisor.Account
