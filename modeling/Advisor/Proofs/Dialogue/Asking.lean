import Advisor.Proofs.Dialogue.Course

namespace Advisor

/-- Whom a question goes to. -/
inductive Topic
  | model
  | account
  | documentation
  | web
  deriving DecidableEq, Repr

def Question.topic : Question → Topic
  | completion _ | stream _ => .model
  | session | accessToken _ | wallet _ _ | orders _ _ | transactions _ _ => .account
  | index _ _ _ _ _ | page _ _ | overview => .documentation
  | search _ _ => .web

def Question.About (topic : Topic) (q : Question) : Prop := q.topic = topic

def Act.Asks (kind : Question → Prop) (a : Act) : Prop := ∃ q arrival, a = .asked q arrival ∧ kind q

def Act.isAsked : Act → Bool
  | asked _ _ => true
  | sent _ _ => false

def inquiries (acts : List Act) : List Act := acts.filter Act.isAsked

@[simp] theorem inquiries_append (before after : List Act) :
    inquiries (before ++ after) = inquiries before ++ inquiries after :=
  List.filter_append ..

namespace Dialogue

/-- A dialogue that sends nothing, and asks only questions of a kind. -/
inductive Asks (kind : Question → Prop) : Dialogue α → Prop
  | done (a : α) : Asks kind (.done a)
  | ask {q : Question} {next : Arrival q.Answer → Dialogue α} (hq : kind q)
      (hn : ∀ arrival, Asks kind (next arrival)) : Asks kind (.ask q next)
  | wait (hn : Asks kind next) : Asks kind (.wait lapse next)
  | read {slot : Slot} {next : Option slot.Value → Dialogue α} (hn : ∀ v, Asks kind (next v)) :
      Asks kind (.read slot next)
  | store (hn : Asks kind next) : Asks kind (.store slot value next)
  | now {next : Timestamp → Dialogue α} (hn : ∀ t, Asks kind (next t)) : Asks kind (.now next)

variable {kind : Question → Prop}

theorem Asks.mono {kind' : Question → Prop} {d : Dialogue α} (h : d.Asks kind)
    (hk : ∀ q, kind q → kind' q) : d.Asks kind' := by
  induction h with
  | done a => exact .done a
  | ask hq hn ih => exact .ask (hk _ hq) ih
  | wait hn ih => exact .wait ih
  | read hn ih => exact .read ih
  | store hn ih => exact .store ih
  | now hn ih => exact .now ih

theorem asks_pure (a : α) : (pure a : Dialogue α).Asks kind := .done a

theorem Asks.bind {d : Dialogue α} {f : α → Dialogue β} (hd : d.Asks kind)
    (hf : ∀ a, (f a).Asks kind) : (d >>= f).Asks kind := by
  change (d.bind f).Asks kind
  induction hd with
  | done a => exact hf a
  | ask hq hn ih => exact .ask hq ih
  | wait hn ih => exact .wait ih
  | read hn ih => exact .read ih
  | store hn ih => exact .store ih
  | now hn ih => exact .now ih

theorem asks_put {q : Question} (hq : kind q) : (put q).Asks kind := .ask hq fun _ => .done _

theorem asks_await {q : Question} (hq : kind q) : (await q).Asks kind :=
  .ask hq fun _ => .wait (.done _)

theorem asks_askWithin {q : Question} (hq : kind q) (limitMs : Nat) :
    (askWithin limitMs q).Asks kind := .ask hq fun _ => .wait (.done _)

theorem asks_pause (lapse : Lapse) : (pause lapse).Asks kind := .wait (.done ())

theorem asks_remembered (slot : Slot) : (remembered slot).Asks kind := .read fun _ => .done _

theorem asks_remember (slot : Slot) (value : slot.Value) : (remember slot value).Asks kind :=
  .store (.done ())

theorem asks_clock : clock.Asks kind := .now fun _ => .done _

theorem asks_mapM {f : α → Dialogue β} (hf : ∀ a, (f a).Asks kind) (as : List α) :
    (as.mapM f).Asks kind := by
  induction as with
  | nil => exact asks_pure []
  | cons a as ih =>
      rw [List.mapM_cons]
      exact (hf a).bind fun b => ih.bind fun bs => asks_pure (b :: bs)

theorem asks_takeEach {take : β → α → Dialogue β} (ht : ∀ b a, (take b a).Asks kind)
    (items : List (Lapse × α)) (elapsed : Nat) (b : β) :
    (takeEach take elapsed b items).Asks kind := by
  induction items generalizing elapsed b with
  | nil => exact asks_pure _
  | cons item rest ih =>
      obtain ⟨lapse, a⟩ := item
      exact (asks_pause _).bind fun _ => (ht b a).bind fun b => ih _ b

theorem Asks.course {d : Dialogue α} (hd : d.Asks kind) (h : Course d acts r) :
    ∀ a ∈ acts, a.Asks kind := by
  induction h with
  | done a => simp
  | ask arrival rest ih =>
      cases hd with
      | ask hq hn =>
          rintro a (_ | ⟨_, ha⟩)
          · exact ⟨_, arrival, rfl, hq⟩
          · exact ih (hn arrival) a ha
  | wait rest ih => cases hd with | wait hn => exact ih hn
  | store rest ih => cases hd with | store hn => exact ih hn
  | leftWaiting | leftSending => simp
  | send heard rest ih => cases hd
  | read v rest ih => cases hd with | read hn => exact ih (hn v)
  | now t rest ih => cases hd with | now hn => exact ih (hn t)

theorem Asks.course_lift {d : Dialogue α} {r : Option (Except Failure α)} (hd : d.Asks kind)
    (h : Course (ExceptT.lift d : Attempt α).run acts r) : ∀ a ∈ acts, a.Asks kind := by
  rcases Attempt.course_lift h with ⟨_, _, hcourse⟩ | ⟨_, hcourse⟩
  · exact hd.course hcourse
  · exact hd.course hcourse

theorem Asks.inquiries {d : Dialogue α} (hd : d.Asks kind) (h : Course d acts r) :
    Advisor.inquiries acts = acts := by
  rw [Advisor.inquiries]
  rw [List.filter_eq_self]
  intro a ha
  obtain ⟨q, arrival, rfl, _⟩ := hd.course h a ha
  rfl

theorem Asks.unheard {d : Dialogue α} (hd : d.Asks kind) (h : Course d acts r) :
    acts.filterMap Act.heard? = [] := by
  rw [List.filterMap_eq_nil_iff]
  intro a ha
  obtain ⟨q, arrival, rfl, _⟩ := hd.course h a ha
  rfl

end Dialogue

end Advisor
