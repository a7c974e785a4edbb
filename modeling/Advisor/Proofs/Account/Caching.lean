import Advisor.Proofs.Account.Assembly

namespace Advisor.Account

open Dialogue

def fetchedBy (accountId : String) : Act → Option (List (Transaction Float))
  | .asked (.transactions id _) arrival => if id = accountId then arrival.result.toOption else none
  | _ => none

def firstFetch (accountId : String) (acts : List Act) : Option (List (Transaction Float)) :=
  acts.findSome? (fetchedBy accountId)

theorem firstFetch_append (accountId : String) (before after : List Act) :
    firstFetch accountId (before ++ after) =
      (firstFetch accountId before).or (firstFetch accountId after) :=
  List.findSome?_append

theorem firstFetch_asked (accountId id token : String)
    (arrival : Arrival (List (Transaction Float))) :
    firstFetch accountId [.asked (.transactions id token) arrival] =
      if id = accountId then arrival.result.toOption else none := by
  simp [firstFetch, fetchedBy]

theorem firstFetch_eq_none {accountId : String} {acts : List Act} :
    firstFetch accountId acts = none ↔ ∀ act ∈ acts, fetchedBy accountId act = none :=
  List.findSome?_eq_none_iff

/-- The memory has of each account what its first fetch in a history brought, and has had it no
longer than since an instant. -/
structure Remembers (since : Nat) (history : List Act) (m : Memory) : Prop where
  lasting : ∀ entry ∈ m.transactions.entries, since + transactionsLifetime ≤ entry.2.1
  first : ∀ id, (m.transactions.entries.lookup id).map (·.2) =
    (firstFetch id history).map (dedupe [])

variable {w : World σ} {s t u : Scene σ} {accountId token : String} {locale : Locale} {m : Memory}
  {since now : Nat} {history acts : List Act}

theorem remembers_nothing (hm : m.transactions = .empty) : Remembers since [] m := by
  constructor <;> simp [hm, Cache.empty, firstFetch]

theorem Remembers.get? (hm : Remembers since history m) (hnow : now < since + transactionsLifetime)
    (accountId : String) : m.get? now (.transactions accountId) =
      (firstFetch accountId history).map (dedupe []) := by
  rw [← hm.first]
  simp only [Memory.get?, Cache.get?]
  cases hlookup : m.transactions.entries.lookup accountId with
  | none => rfl
  | some entry =>
      obtain ⟨_, _, hentries, _⟩ := List.lookup_eq_some_iff.1 hlookup
      have hlasting := hm.lasting (accountId, entry) (by simp [hentries])
      exact if_pos (Nat.lt_of_lt_of_le hnow hlasting)

theorem Remembers.congr (hm : Remembers since history m)
    (h : ∀ id, firstFetch id history' = firstFetch id history) : Remembers since history' m :=
  ⟨hm.lasting, fun id => (hm.first id).trans (by rw [h])⟩

theorem Remembers.lookup_eq_none (hm : Remembers since history m)
    (hnew : firstFetch accountId history = none) :
    m.transactions.entries.lookup accountId = none := by
  simpa [hnew] using hm.first accountId

theorem Remembers.entries_store (hm : Remembers since history m)
    (hnow : now < since + transactionsLifetime) (hnew : firstFetch accountId history = none)
    (ts : List (Transaction Float)) :
    (m.store now (.transactions accountId) ts).transactions.entries =
      (accountId, now + transactionsLifetime, ts) :: m.transactions.entries := by
  refine congrArg (_ :: ·) (List.filter_eq_self.2 fun entry hentry => ?_)
  have hlasting := hm.lasting entry hentry
  have hother := List.lookup_eq_none_iff.1 (hm.lookup_eq_none hnew) entry hentry
  have hkey : entry.1 ≠ accountId := fun h => by simp [h] at hother
  simpa using ⟨hkey, Nat.lt_of_lt_of_le hnow hlasting⟩

theorem Remembers.kept (hm : Remembers since history m) (hsince : since ≤ now)
    (hnow : now < since + transactionsLifetime) (hnew : firstFetch accountId history = none)
    (token : String) (arrival : Arrival (List (Transaction Float))) :
    Remembers since (history ++ [.asked (.transactions accountId token) arrival])
      (kept accountId now m (arrival.result.toOption.map (dedupe []))) := by
  obtain ⟨lapse, result⟩ := arrival
  cases result with
  | error why =>
      exact hm.congr fun id => by simp [firstFetch_append, firstFetch_asked, Except.toOption]
  | ok ts =>
      have hentries := hm.entries_store hnow hnew (dedupe [] ts)
      constructor
      · change ∀ entry ∈ (m.store now (.transactions accountId)
          (dedupe [] ts)).transactions.entries, _
        rw [hentries]
        rintro entry (_ | ⟨_, hentry⟩)
        · exact Nat.add_le_add_right hsince _
        · exact hm.lasting entry hentry
      · intro id
        change ((m.store now (.transactions accountId) (dedupe [] ts)).transactions.entries.lookup
          id).map _ = _
        rw [hentries, firstFetch_append, firstFetch_asked]
        by_cases hid : accountId = id
        · subst hid
          simp [hnew, Except.toOption]
        · have hbeq : (id == accountId) = false := by simpa using Ne.symm hid
          rw [List.lookup_cons, hbeq, if_neg hid, Option.or_none]
          exact hm.first id

theorem Remembers.append (hm : Remembers since history m) (h : ∀ id, firstFetch id acts = none) :
    Remembers since (history ++ acts) m :=
  hm.congr fun id => by rw [firstFetch_append, h, Option.or_none]

theorem Looked.remembers {v : View} (hw : w.Onward) (h : Looked w locale s t acts v)
    (hs : Remembers since history s.memory) (hsince : since ≤ w.instant s.outside)
    (hlife : w.instant t.outside < since + transactionsLifetime) :
    Remembers since (history ++ acts) t.memory := by
  cases h with
  | unresolved session hnobody hkept note => exact hkept ▸ hs.append fun _ => rfl
  | expired session who hwho token hfailed hkept note => exact hkept ▸ hs.append fun _ => rfl
  | @consulted x asked session who hwho arrival token htoken f hx hxt hsource =>
      have hs' : Remembers since
          (history ++ ([.asked .session session, .asked (.accessToken who) arrival] ++
            [.asked (.wallet who.accountId token) f.wallet,
              .asked (.orders who.accountId token) f.orders])) s.memory := hs.append fun _ => rfl
      rw [← List.append_assoc]
      generalize f.transactions = ts at hsource
      cases hsource with
      | memory hy hyt hknown hkept => rw [hkept, List.append_nil]; exact hs'
      | service arrival hy hz hzt hunknown hkept =>
          have hylife := Nat.lt_of_le_of_lt (hw.leads (hz.trans hzt)) hlife
          have hnew := Option.map_eq_none_iff.1 ((hs'.get? hylife _).symm.trans hunknown)
          rw [hkept]
          exact hs'.kept (Nat.le_trans hsince (hw.leads (hy.trans hz)))
            (Nat.lt_of_le_of_lt (hw.leads hzt) hlife) hnew token arrival

theorem run_lookups {earlier : List Locale} {views : List View} (hw : w.Onward)
    (h : (earlier.mapM lookup).run w s = (some views, t)) (hs : Remembers since history s.memory)
    (hsince : since ≤ w.instant s.outside)
    (hlife : w.instant t.outside < since + transactionsLifetime) :
    ∃ acts, t.acts = s.acts ++ acts ∧ Remembers since (history ++ acts) t.memory := by
  induction earlier generalizing s history views with
  | nil =>
      obtain ⟨_, rfl⟩ := run_pure h
      exact ⟨[], by simp, by simpa using hs⟩
  | cons locale rest ih =>
      rw [List.mapM_cons] at h
      obtain ⟨v, u, hlookup, h⟩ := run_bind_some h
      obtain ⟨vs, u', hrest, h⟩ := run_bind_some h
      obtain ⟨_, rfl⟩ := run_pure h
      obtain ⟨acts, hacts, hlooked⟩ := run_lookup hlookup
      have hulife := Nat.lt_of_le_of_lt (hw.leads (leads_of_run hrest)) hlife
      have husince := Nat.le_trans hsince (hw.leads (leads_of_run hlookup))
      obtain ⟨more, hmore, hremembers⟩ :=
        ih hrest (hlooked.remembers hw hs hsince hulife) husince
      exact ⟨acts ++ more, by simp [hmore, hacts], by simpa using hremembers⟩

theorem Looked.memory_eq {v : View} (h : Looked w locale s t acts v)
    (hnone : ∀ id, ∀ act ∈ acts, fetchedBy id act = none) : t.memory = s.memory := by
  cases h with
  | unresolved session hnobody hkept note => exact hkept
  | expired session who hwho token hfailed hkept note => exact hkept
  | @consulted x asked session who hwho arrival token htoken f hx hxt hsource =>
      generalize f.transactions = ts at hsource
      cases hsource with
      | memory hy hyt hknown hkept => exact hkept
      | service arrival hy hz hzt hunknown hkept =>
          have hfailed := hnone who.accountId (.asked (.transactions who.accountId token) arrival)
            (by simp)
          rw [fetchedBy, if_pos rfl] at hfailed
          rw [hkept, hfailed]
          rfl

theorem Source.asked {ts : Arrival (List (Transaction Float))}
    (h : Source w accountId token s t ts acts) :
    ∀ act ∈ acts, ∃ arrival, act = .asked (.transactions accountId token) arrival := by
  cases h with
  | memory hx hxt hknown hkept => simp
  | service arrival hx hy hyt hunknown hkept => simp

theorem Source.first {ts : Arrival (List (Transaction Float))} (hw : w.Onward)
    (h : Source w accountId token s t ts acts) (hs : Remembers since history s.memory)
    (hlife : w.instant t.outside < since + transactionsLifetime) :
    ts.result.toOption = (firstFetch accountId (history ++ acts)).map (dedupe []) ∧
      ((∃ arrival, .asked (.transactions accountId token) arrival ∈ acts) ↔
        firstFetch accountId history = none) := by
  rw [firstFetch_append]
  cases h with
  | memory hx hxt hknown hkept =>
      have hfirst := hs.get? (Nat.lt_of_le_of_lt (hw.leads hxt) hlife) accountId
      rw [hknown] at hfirst
      obtain ⟨fetched, hfetched, rfl⟩ := Option.map_eq_some_iff.1 hfirst.symm
      simp [hfetched, Arrival.now, Except.toOption]
  | service arrival hx hy hyt hunknown hkept =>
      have hfirst := hs.get? (Nat.lt_of_le_of_lt (hw.leads (hy.trans hyt)) hlife) accountId
      rw [hunknown] at hfirst
      have hnew := Option.map_eq_none_iff.1 hfirst.symm
      rw [hnew, firstFetch_asked, if_pos rfl]
      exact ⟨by cases arrival.result <;> rfl, by simp⟩

theorem Fetches.noted {f : Fetches} (h : f.transactions.result.toOption = none) (accountId : String)
    (today : Timestamp) :
    locale.pick "Transaction history unavailable." "История транзакций недоступна." ∈
      (f.view locale accountId today).notes := by
  refine List.mem_filterMap.2 ⟨(f.transactions.lapse, .transactions f.transactions.result), ?_, ?_⟩
  · exact List.mem_mergeSort.2 (by simp [parts])
  · cases hresult : f.transactions.result with
    | error why => rfl
    | ok ts => simp [hresult, Except.toOption] at h

theorem Looked.of_signedIn {v : View} (h : Looked w locale s t acts v) {session : Session}
    (hsession : Act.asked .session ⟨lapse, .ok (some session)⟩ ∈ acts)
    (htoken : Act.asked (.accessToken session) ⟨lapse', .ok token⟩ ∈ acts) :
    ∃ (f : Fetches) (asked : List Act) (x : σ), w.Leads s.outside x ∧ w.Leads x t.outside ∧
      Source w session.accountId token s t f.transactions asked ∧
      v = f.view locale session.accountId (w.today x) ∧
      acts = [.asked .session ⟨lapse, .ok (some session)⟩,
        .asked (.accessToken session) ⟨lapse', .ok token⟩,
        .asked (.wallet session.accountId token) f.wallet,
        .asked (.orders session.accountId token) f.orders] ++ asked := by
  cases h with
  | unresolved session' hnobody hkept note => obtain (_ | ⟨_, _ | _⟩) := htoken
  | expired session' who hwho token' hfailed hkept note =>
      obtain (_ | ⟨_, _ | ⟨_, _ | _⟩⟩) := htoken
      cases hfailed
  | @consulted x asked session' who hwho arrival token' htoken' f hx hxt hsource =>
      rcases htoken with _ | ⟨_, _ | ⟨_, _ | ⟨_, _ | ⟨_, hasked⟩⟩⟩⟩
      · cases htoken'
        rcases hsession with _ | ⟨_, _ | ⟨_, _ | ⟨_, _ | ⟨_, hasked⟩⟩⟩⟩
        · exact ⟨f, asked, x, hx, hxt, hsource, rfl, rfl⟩
        · obtain ⟨_, he⟩ := hsource.asked _ hasked
          cases he
      · obtain ⟨_, he⟩ := hsource.asked _ hasked
        cases he

/-- The figures of a view, if transactions have been fetched: they are of the first of every id. -/
inductive View.Figures (today : Timestamp) (v : View) : Option (List (Transaction Float)) → Prop
  | unknown (flow : v.flow = none) (risk : v.risk = none) : View.Figures today v none
  | known (first : FirstOfEach Transaction.id fetched ts) (flow : v.flow = some (Account.flow ts today))
      (risk : v.risk = some (Account.risk ts today)) : View.Figures today v (some fetched)

theorem Fetches.figures {f : Fetches} {fetched : Option (List (Transaction Float))}
    (h : f.transactions.result.toOption = fetched.map (dedupe [])) (accountId : String)
    (today : Timestamp) : View.Figures today (f.view locale accountId today) fetched := by
  have hflow : (f.view locale accountId today).flow =
      (fetched.map (dedupe [])).map (Account.flow · today) := by rw [← h, view]
  have hrisk : (f.view locale accountId today).risk =
      (fetched.map (dedupe [])).map (Account.risk · today) := by rw [← h, view]
  cases fetched with
  | none => exact .unknown hflow hrisk
  | some ts => exact .known (firstOfEach_dedupe ts) hflow hrisk

/-- However many looks at whatever accounts came before, the service is asked for the transactions
of an account until it has once given them, and what it gave then is what counts. What fails, or is
about another account, changes nothing. -/
theorem transactions_fetched_once {w : World σ} (hw : w.Onward) {s t u : Scene σ}
    (hs : s.memory.transactions = .empty) {earlier : List Locale} {views : List View}
    (hearlier : (earlier.mapM lookup).run w s = (some views, t)) {locale : Locale} {v : View}
    (hrun : (lookup locale).run w t = (some v, u))
    (hlife : w.instant u.outside < w.instant s.outside + transactionsLifetime) :
    ∃ history acts, t.acts = s.acts ++ history ∧ u.acts = t.acts ++ acts ∧
      (∀ (session : Session) (token : String) (lapse lapse' : Lapse),
        Act.asked .session ⟨lapse, .ok (some session)⟩ ∈ acts →
        Act.asked (.accessToken session) ⟨lapse', .ok token⟩ ∈ acts →
        (∃ arrival, Act.asked (.wallet session.accountId token) arrival ∈ acts) ∧
        (∃ arrival, Act.asked (.orders session.accountId token) arrival ∈ acts) ∧
        ((∃ arrival, Act.asked (.transactions session.accountId token) arrival ∈ acts) ↔
          ∀ act ∈ history, fetchedBy session.accountId act = none) ∧
        (∃ x, w.Leads t.outside x ∧ w.Leads x u.outside ∧
          View.Figures (w.today x) v (firstFetch session.accountId (history ++ acts))) ∧
        (firstFetch session.accountId (history ++ acts) = none →
          locale.pick "Transaction history unavailable." "История транзакций недоступна." ∈
            v.notes)) ∧
      ((∀ id, ∀ act ∈ acts, fetchedBy id act = none) → u.memory = t.memory) ∧
      ∀ id, (∀ act ∈ acts, fetchedBy id act = none) →
        ∀ now < w.instant s.outside + transactionsLifetime,
          u.memory.get? now (.transactions id) = t.memory.get? now (.transactions id) := by
  have hsu := hw.leads (leads_of_run hrun)
  obtain ⟨history, hhistory, hremembers⟩ := run_lookups hw hearlier (remembers_nothing hs)
    (Nat.le_refl _) (Nat.lt_of_le_of_lt hsu hlife)
  rw [List.nil_append] at hremembers
  obtain ⟨acts, hacts, hlooked⟩ := run_lookup hrun
  refine ⟨history, acts, hhistory, hacts, ?_, ?_, ?_⟩
  · intro session token lapse lapse' hsession htoken
    obtain ⟨f, asked, x, hx, hxt, hsource, rfl, rfl⟩ := hlooked.of_signedIn hsession htoken
    obtain ⟨hbrought, hasked⟩ := hsource.first hw hremembers hlife
    have hfirst : firstFetch session.accountId (history ++
        ([.asked .session ⟨lapse, .ok (some session)⟩,
          .asked (.accessToken session) ⟨lapse', .ok token⟩,
          .asked (.wallet session.accountId token) f.wallet,
          .asked (.orders session.accountId token) f.orders] ++ asked)) =
        firstFetch session.accountId (history ++ asked) := by
      rw [firstFetch_append, firstFetch_append _ history]
      rfl
    rw [hfirst]
    refine ⟨⟨f.wallet, by simp⟩, ⟨f.orders, by simp⟩, ?_,
      ⟨x, hx, hxt, Fetches.figures hbrought ..⟩, fun hnone => ?_⟩
    · rw [← firstFetch_eq_none, ← hasked]
      simp
    · exact f.noted (by rw [hbrought, hnone]; rfl) _ _
  · exact hlooked.memory_eq
  · intro id hother now hnow
    have hremembers' := hlooked.remembers hw hremembers (hw.leads (leads_of_run hearlier)) hlife
    rw [hremembers'.get? hnow, hremembers.get? hnow, firstFetch_append,
      firstFetch_eq_none.2 hother, Option.or_none]

def Fetches.prompt : Fetches where
  wallet := .now (.error (.account "down"))
  orders := .now (.ok [])
  transactions := .now (.ok [])

theorem fetching_onward (f : Fetches) : (fetching f).Onward := fun _ _ _ => Nat.le_refl _

theorem Looked.fetching {f : Fetches} {s t : Scene Unit} {v : View}
    (h : Looked (fetching f) locale s t acts v) (hshows : ∀ act ∈ acts, (fetching f).Shows act) :
    .asked .session (.now (.ok (some ⟨"acc-1", "refresh"⟩))) ∈ acts ∧
      .asked (.accessToken ⟨"acc-1", "refresh"⟩) (.now (.ok "token")) ∈ acts := by
  cases h with
  | unresolved session hnobody hkept note =>
      obtain ⟨_, rfl⟩ := hshows _ (.head _)
      exact absurd rfl (hnobody _)
  | expired session who hwho token hfailed hkept note =>
      obtain ⟨_, rfl⟩ := hshows (.asked (.accessToken who) token) (by simp)
      cases hfailed
  | consulted session who hwho arrival token htoken g hx hxt hsource =>
      obtain ⟨_, rfl⟩ := hshows (.asked .session session) (by simp)
      obtain ⟨_, rfl⟩ := hshows (.asked (.accessToken who) arrival) (by simp)
      cases hwho
      exact ⟨.head _, .tail _ (.head _)⟩

theorem fetching_attended (f : Fetches) : (fetching f).Attended :=
  ⟨fun _ s => ⟨s, rfl⟩, fun _ s => ⟨s, rfl⟩⟩

theorem run_fetching {f : Fetches} {s t : Scene Unit} {v : View}
    (h : (lookup locale).run (fetching f) s = (some v, t)) :
    ∃ acts, t.acts = s.acts ++ acts ∧ (∀ act ∈ acts, (fetching f).Shows act) ∧
      .asked .session (.now (.ok (some ⟨"acc-1", "refresh"⟩))) ∈ acts ∧
      .asked (.accessToken ⟨"acc-1", "refresh"⟩) (.now (.ok "token")) ∈ acts := by
  obtain ⟨acts, hacts, _, hshows⟩ := run_course (fetching f) (lookup locale) s
  obtain ⟨acts', hacts', hlooked⟩ := run_lookup h
  rw [h] at hacts
  obtain rfl := List.append_cancel_left (hacts.symm.trans hacts')
  exact ⟨acts, hacts, hshows, hlooked.fetching hshows⟩

theorem second_look_fetches_nothing :
    (fetching .prompt).Onward ∧ ∃ views t v u,
      ([Locale.en].mapM lookup).run (fetching .prompt) ⟨(), .empty, []⟩ = (some views, t) ∧
      (lookup .ru).run (fetching .prompt) t = (some v, u) ∧
      (fetching .prompt).instant u.outside < transactionsLifetime ∧
      ∃ acts, u.acts = t.acts ++ acts ∧
        (∃ arrival, Act.asked (.wallet "acc-1" "token") arrival ∈ acts) ∧
        ¬∃ arrival, Act.asked (.transactions "acc-1" "token") arrival ∈ acts := by
  have hw := fetching_onward .prompt
  have hlife : 0 < transactionsLifetime := by decide
  obtain ⟨views, t, hearlier⟩ :=
    (fetching_attended .prompt).exists_run ([Locale.en].mapM lookup) ⟨(), .empty, []⟩
  obtain ⟨v, u, hrun⟩ := (fetching_attended .prompt).exists_run (lookup .ru) t
  obtain ⟨history, acts, hhistory, hacts, hsigned, _⟩ :=
    transactions_fetched_once hw rfl hearlier hrun hlife
  obtain ⟨acts', hacts', _, hsession, htoken⟩ := run_fetching hrun
  obtain rfl := List.append_cancel_left (hacts.symm.trans hacts')
  obtain ⟨hwallet, _, hasked, _⟩ := hsigned _ _ _ _ hsession htoken
  refine ⟨hw, views, t, v, u, hearlier, hrun, hlife, acts, hacts, hwallet, fun hagain => ?_⟩
  rw [List.mapM_cons] at hearlier
  obtain ⟨v₁, t₁, hfirst, hrest⟩ := run_bind_some hearlier
  obtain ⟨_, _, hnil, hrest⟩ := run_bind_some hrest
  obtain ⟨_, rfl⟩ := run_pure hnil
  obtain ⟨_, rfl⟩ := run_pure hrest
  have hnone : (([] : List Locale).mapM lookup).run (fetching .prompt) ⟨(), .empty, []⟩ =
      (some [], ⟨(), .empty, []⟩) := rfl
  obtain ⟨history₁, acts₁, hhistory₁, hacts₁, hsigned₁, _⟩ :=
    transactions_fetched_once hw rfl hnone hfirst hlife
  obtain rfl : history₁ = [] := by simpa using hhistory₁
  obtain ⟨acts₂, hacts₂, hshows, hsession₁, htoken₁⟩ := run_fetching hfirst
  obtain rfl := List.append_cancel_left (hacts₁.symm.trans hacts₂)
  obtain rfl := List.append_cancel_left (hhistory.symm.trans hacts₁)
  obtain ⟨_, _, hasked₁, _⟩ := hsigned₁ _ _ _ _ hsession₁ htoken₁
  obtain ⟨arrival, harrival⟩ := hasked₁.2 (by simp)
  obtain ⟨_, rfl⟩ := hshows _ harrival
  exact absurd (hasked.1 hagain _ harrival)
    (by simp [fetchedBy, fetching, Fetches.prompt, Arrival.now, Except.toOption])

end Advisor.Account
