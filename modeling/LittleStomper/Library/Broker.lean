/-
# A publish/subscribe broker

What a broker is for, apart from how it is built.  Clients subscribe to topics, any number of
times, each time under a name of their own.  A message published at a topic is put, for every
subscription there is, into the outbox that its client has for the topic; what is in an outbox
is handed over in order.  A client that has left has nothing in its outboxes any more, and the
next message ends its subscriptions.  Nothing is promised about messages of different topics.

A message is published once, as messages carry an identity.  In every run

* each client is handed the messages of a topic in the order in which they were published
  there (`handed_follows`), so no two clients see two of them in different orders;
* a client is handed a message at most once for each of its subscriptions (`handed_count_le`);
* and only for a subscription it has made, under the name it gave (`handed_subscribed`).
-/
import LittleStomper.Library.Run
import Mathlib.Data.List.Count
import Mathlib.Data.List.Nodup
import Mathlib.Logic.Function.Basic

/-! ## One sequence in the order of another -/

namespace List

variable {α : Type*} {a b m : α} {p l l' es : List α}

/-- Any two different items of `l` stand in the order in which they stand in `p`. -/
def Follows (p l : List α) : Prop := ∀ a b, [a, b].Sublist l → a ≠ b → [a, b].Sublist p

/-- What stands in two orders in a sequence stands there twice. -/
theorem Nodup.not_sublist_swap (hp : p.Nodup) (h : [a, b].Sublist p) : ¬ [b, a].Sublist p := by
  induction p with
  | nil => cases h
  | cons c p ih =>
    obtain ⟨hc, hp⟩ := List.nodup_cons.mp hp
    intro h'
    rcases List.sublist_cons_iff.mp h with hab | ⟨r, heq, hb⟩
    · rcases List.sublist_cons_iff.mp h' with hba | ⟨r', heq', ha⟩
      · exact ih hp hab hba
      · obtain ⟨rfl, rfl⟩ := List.cons.inj heq'
        exact hc (hab.subset (List.mem_cons_of_mem _ List.mem_cons_self))
    · obtain ⟨rfl, rfl⟩ := List.cons.inj heq
      rcases List.sublist_cons_iff.mp h' with hba | ⟨r', heq', ha⟩
      · exact hc (hba.subset (List.mem_cons_of_mem _ List.mem_cons_self))
      · obtain ⟨rfl, rfl⟩ := List.cons.inj heq'
        exact hc (List.singleton_sublist.mp hb)

/-- **Sequences that follow the same one agree** on the order of any two items. -/
theorem Follows.agree (hp : p.Nodup) (h : p.Follows l) (h' : p.Follows l') (hab : a ≠ b)
    (hl : [a, b].Sublist l) : ¬ [b, a].Sublist l' := by
  intro hl'
  exact hp.not_sublist_swap (h a b hl hab) (h' b a hl' hab.symm)

/-- A part of a sequence stands in the same order. -/
theorem Follows.sublist (h : p.Follows l) (hl : l'.Sublist l) : p.Follows l' :=
  fun a b hab hne => h a b (hab.trans hl) hne

/-- **A new item comes last**, however often. -/
theorem Follows.concat (h : p.Follows l) (hsub : l ⊆ p) (hes : ∀ e ∈ es, e = m) :
    (p ++ [m]).Follows (l ++ es) := by
  intro a b hab hne
  obtain ⟨l₁, l₂, heq, h₁, h₂⟩ := List.sublist_append_iff.mp hab
  rcases l₁ with _ | ⟨a', _ | ⟨b', l₁⟩⟩
  · -- both are new
    rw [List.nil_append] at heq
    subst heq
    have ha := hes a (h₂.subset List.mem_cons_self)
    have hb := hes b (h₂.subset (List.mem_cons_of_mem _ List.mem_cons_self))
    exact absurd (ha.trans hb.symm) hne
  · -- the second is new
    obtain ⟨rfl, rfl⟩ := List.cons.inj heq
    have ha : a ∈ p := hsub (List.singleton_sublist.mp h₁)
    have hb := hes b (h₂.subset List.mem_cons_self)
    rw [hb]
    exact (List.singleton_sublist.mpr ha).append (List.Sublist.refl [m])
  · -- none is new
    obtain ⟨rfl, htail⟩ := List.cons.inj heq
    obtain ⟨rfl, hnil⟩ := List.cons.inj htail
    obtain ⟨rfl, -⟩ := List.append_eq_nil_iff.mp hnil.symm
    exact (h _ _ h₁ hne).trans (List.sublist_append_left p [m])

/-- Going on without a new item changes nothing. -/
theorem Follows.mono {p' : List α} (h : p.Follows l) (hp : p.Sublist p') : p'.Follows l :=
  fun a b hab hne => (h a b hab hne).trans hp

end List

/-! ## The broker -/

/-- What a client is handed: a message of a topic, under the name of one of its
subscriptions. -/
structure Delivery (τ ι μ : Type*) where
  topic : τ
  name : ι
  message : μ
  deriving DecidableEq

/-- A broker with topics `τ`, clients `γ`, names `ι` of subscriptions, subscriptions `σ` and
messages `μ`. -/
structure Broker (τ γ ι σ μ : Type*) where
  /-- The subscriptions at a topic: whose they are, and under which name. -/
  subscriptions : τ → σ → Option (γ × ι)
  /-- The clients that have not left. -/
  present : γ → Prop
  /-- What waits for a client, topic by topic. -/
  outbox : γ → τ → List (ι × μ)
  /-- The messages published so far. -/
  published : List μ

/-- What a broker does. -/
inductive BrokerLabel (τ γ ι σ μ : Type*) where
  | subscribe (d : τ) (s : σ) (c : γ) (i : ι)
  | unsubscribe (d : τ) (s : σ)
  /-- A message is put into the outboxes, one subscription after the other. -/
  | publish (d : τ) (m : μ) (order : List σ)
  | handOver (c : γ) (d : τ)
  | leave (c : γ)

/-- What can be observed of a broker. -/
inductive BrokerObs (τ γ ι σ μ : Type*) where
  | subscribed (d : τ) (s : σ) (c : γ) (i : ι)
  | unsubscribed (d : τ) (s : σ)
  | published (d : τ) (m : μ)
  | handed (c : γ) (δ : Delivery τ ι μ)
  deriving DecidableEq

namespace Broker

variable {τ γ ι σ μ : Type*}

/-- The part of a client in a message: one copy for each of its subscriptions. -/
def share [DecidableEq γ] (subscriptions : σ → Option (γ × ι)) (m : μ) (order : List σ) (c : γ) :
    List (ι × μ) :=
  order.filterMap fun s => (subscriptions s).bind fun holder =>
    if holder.1 = c then some (holder.2, m) else none

/-- A sequence of subscriptions has all there are, once each. -/
def Lists (order : List σ) (subscriptions : σ → Option (γ × ι)) : Prop :=
  order.Nodup ∧ ∀ s, s ∈ order ↔ (subscriptions s).isSome = true

variable [DecidableEq τ] [DecidableEq γ]

open Classical in
/-- A message is published: whoever is present gets it, and whoever is not loses its
subscriptions. -/
noncomputable def publish (b : Broker τ γ ι σ μ) (d : τ) (m : μ) (order : List σ) :
    Broker τ γ ι σ μ where
  subscriptions := Function.update b.subscriptions d fun s =>
    (b.subscriptions d s).filter fun holder => b.present holder.1
  present := b.present
  outbox := fun c => if b.present c then
      Function.update (b.outbox c) d (b.outbox c d ++ share (b.subscriptions d) m order c)
    else b.outbox c
  published := b.published ++ [m]

variable [DecidableEq σ]

/-- A subscription is made (`some`) or ended (`none`). -/
def setSubscription (b : Broker τ γ ι σ μ) (d : τ) (s : σ) (holder : Option (γ × ι)) :
    Broker τ γ ι σ μ :=
  { b with
    subscriptions :=
      Function.update b.subscriptions d (Function.update (b.subscriptions d) s holder) }

open Classical in
/-- One step of a broker. -/
noncomputable def step (b : Broker τ γ ι σ μ) :
    BrokerLabel τ γ ι σ μ → Option (Broker τ γ ι σ μ × List (BrokerObs τ γ ι σ μ))
  | .subscribe d s c i =>
    if b.subscriptions d s = none then
      some (b.setSubscription d s (some (c, i)), [.subscribed d s c i])
    else none
  | .unsubscribe d s => some (b.setSubscription d s none, [.unsubscribed d s])
  | .publish d m order =>
    if Lists order (b.subscriptions d) ∧ m ∉ b.published then
      some (b.publish d m order, [.published d m])
    else none
  | .handOver c d =>
    match b.outbox c d with
    | [] => none
    | x :: rest =>
      some ({ b with outbox := Function.update b.outbox c (Function.update (b.outbox c) d rest) },
        [.handed c ⟨d, x.1, x.2⟩])
  | .leave c =>
    some ({ b with
        present := fun c' => b.present c' ∧ c' ≠ c
        outbox := Function.update b.outbox c fun _ => [] }, [])

/-- A broker and its clients, in any order of their steps. -/
noncomputable def lts : LTS (Broker τ γ ι σ μ) (BrokerLabel τ γ ι σ μ) (BrokerObs τ γ ι σ μ) where
  step b l := b.step l

/-- Nobody has subscribed. -/
def initial : Broker τ γ ι σ μ := ⟨fun _ _ => none, fun _ => True, fun _ _ => [], []⟩

end Broker

/-! ## What is observed of a broker -/

namespace BrokerObs

variable {τ γ ι σ μ : Type*} [DecidableEq τ] [DecidableEq γ]

/-- The message published at the topic `d`. -/
def publishedAt? (d : τ) : BrokerObs τ γ ι σ μ → Option μ
  | published d' m => if d' = d then some m else none
  | _ => none

/-- What the client `c` is handed of the topic `d`. -/
def handedAt? (c : γ) (d : τ) : BrokerObs τ γ ι σ μ → Option (ι × μ)
  | handed c' δ => if c' = c ∧ δ.topic = d then some (δ.name, δ.message) else none
  | _ => none

/-- The subscription that the client `c` makes at the topic `d`. -/
def subscribedAt? (c : γ) (d : τ) : BrokerObs τ γ ι σ μ → Option (σ × ι)
  | subscribed d' s c' i => if c' = c ∧ d' = d then some (s, i) else none
  | _ => none

end BrokerObs

namespace Broker

variable {τ γ ι σ μ : Type*} [DecidableEq τ] [DecidableEq γ]

/-- The messages published at a topic, in order. -/
def publishedAt (d : τ) (tr : List (BrokerObs τ γ ι σ μ)) : List μ :=
  tr.filterMap (BrokerObs.publishedAt? d)

/-- What a client was handed of a topic, in order. -/
def handedAt (c : γ) (d : τ) (tr : List (BrokerObs τ γ ι σ μ)) : List (ι × μ) :=
  tr.filterMap (BrokerObs.handedAt? c d)

/-- The subscriptions that a client made at a topic. -/
def subscribedAt (c : γ) (d : τ) (tr : List (BrokerObs τ γ ι σ μ)) : List (σ × ι) :=
  tr.filterMap (BrokerObs.subscribedAt? c d)

/-- What a client was handed of a topic or is to be handed. -/
def dueAt (b : Broker τ γ ι σ μ) (c : γ) (d : τ) (tr : List (BrokerObs τ γ ι σ μ)) :
    List (ι × μ) :=
  handedAt c d tr ++ b.outbox c d

/-- The account of a run. -/
structure Account [DecidableEq μ] (b : Broker τ γ ι σ μ) (tr : List (BrokerObs τ γ ι σ μ)) :
    Prop where
  known : ∀ d, publishedAt d tr ⊆ b.published
  once : ∀ d, (publishedAt d tr).Nodup
  live : ∀ d s c i, b.subscriptions d s = some (c, i) → (s, i) ∈ subscribedAt c d tr
  due : ∀ c d, ∀ x ∈ b.dueAt c d tr,
    x.2 ∈ publishedAt d tr ∧ ∃ s, (s, x.1) ∈ subscribedAt c d tr
  follows : ∀ c d, (publishedAt d tr).Follows ((b.dueAt c d tr).map Prod.snd)
  count : ∀ c d m, ((b.dueAt c d tr).map Prod.snd).count m ≤ (subscribedAt c d tr).length

/-! ## Shares -/

section Share

variable {subscriptions : σ → Option (γ × ι)} {m : μ} {order : List σ} {c : γ}

/-- A copy is for one of the client's subscriptions. -/
theorem mem_share {x : ι × μ} : x ∈ share subscriptions m order c ↔
    ∃ s ∈ order, subscriptions s = some (c, x.1) ∧ x.2 = m := by
  rw [share, List.mem_filterMap]
  constructor
  · rintro ⟨s, hs, hx⟩
    obtain ⟨⟨c', i⟩, hholder, hcopy⟩ := Option.bind_eq_some_iff.mp hx
    obtain ⟨rfl, heq⟩ := Option.ite_none_right_eq_some.mp hcopy
    obtain rfl := Option.some.inj heq
    exact ⟨s, hs, hholder, rfl⟩
  · rintro ⟨s, hs, hholder, rfl⟩
    exact ⟨s, hs, by simp [hholder]⟩

/-- There are not more copies than subscriptions. -/
theorem length_share_le {made : List (σ × ι)} (hnodup : order.Nodup)
    (hmade : ∀ s i, subscriptions s = some (c, i) → (s, i) ∈ made) :
    (share subscriptions m order c).length ≤ made.length := by
  have hlength : (made.map Prod.fst).length = made.length := List.length_map Prod.fst
  rw [share, List.length_filterMap_eq_countP, List.countP_eq_length_filter, ← hlength]
  refine (List.subperm_of_subset (hnodup.filter _) ?_).length_le
  intro s hs
  obtain ⟨-, hsome⟩ := List.mem_filter.mp hs
  obtain ⟨x, hx⟩ := Option.isSome_iff_exists.mp hsome
  obtain ⟨⟨c', i⟩, hholder, hcopy⟩ := Option.bind_eq_some_iff.mp hx
  obtain ⟨rfl, -⟩ := Option.ite_none_right_eq_some.mp hcopy
  exact List.mem_map.mpr ⟨_, hmade s i hholder, rfl⟩

end Share

section

variable {b : Broker τ γ ι σ μ} {tr os : List (BrokerObs τ γ ι σ μ)}

omit [DecidableEq γ] in
@[simp] theorem publishedAt_append (d : τ) :
    publishedAt d (tr ++ os) = publishedAt d tr ++ publishedAt d os := List.filterMap_append

@[simp] theorem handedAt_append (c : γ) (d : τ) :
    handedAt c d (tr ++ os) = handedAt c d tr ++ handedAt c d os := List.filterMap_append

@[simp] theorem subscribedAt_append (c : γ) (d : τ) :
    subscribedAt c d (tr ++ os) = subscribedAt c d tr ++ subscribedAt c d os :=
  List.filterMap_append

omit [DecidableEq γ] in
/-- A subscription that is there afterwards was made just now, or was there before. -/
theorem mem_setSubscription [DecidableEq σ] {d d' : τ} {s s' : σ} {holder : Option (γ × ι)}
    {x : γ × ι} (h : (b.setSubscription d s holder).subscriptions d' s' = some x) :
    d' = d ∧ s' = s ∧ holder = some x ∨ b.subscriptions d' s' = some x := by
  by_cases hd : d' = d
  · subst hd
    by_cases hs : s' = s
    · subst hs
      simp only [setSubscription, Function.update_self] at h
      exact Or.inl ⟨rfl, rfl, h⟩
    · simp only [setSubscription, Function.update_self, Function.update_of_ne hs] at h
      exact Or.inr h
  · simp only [setSubscription, Function.update_of_ne hd] at h
    exact Or.inr h

/-! ## What a broker promises -/

/-- What was handed over was due. -/
theorem handedAt_sublist (c : γ) (d : τ) : (handedAt c d tr).Sublist (b.dueAt c d tr) :=
  List.sublist_append_left _ _

variable [DecidableEq μ]

/-- **Every client is handed the messages of a topic in their order.** -/
theorem Account.handed_follows (h : b.Account tr) (c : γ) (d : τ) :
    (publishedAt d tr).Follows ((handedAt c d tr).map Prod.snd) :=
  (h.follows c d).sublist ((handedAt_sublist c d).map Prod.snd)

/-- **No message is handed over more often than the client has subscribed.** -/
theorem Account.handed_count_le (h : b.Account tr) (c : γ) (d : τ) (m : μ) :
    ((handedAt c d tr).map Prod.snd).count m ≤ (subscribedAt c d tr).length :=
  Nat.le_trans (((handedAt_sublist c d).map Prod.snd).count_le m) (h.count c d m)

/-- **Nothing is handed over that was not published and subscribed to.** -/
theorem Account.handed_subscribed (h : b.Account tr) {c : γ} {d : τ} {x : ι × μ}
    (hx : x ∈ handedAt c d tr) :
    x.2 ∈ publishedAt d tr ∧ ∃ s, (s, x.1) ∈ subscribedAt c d tr :=
  h.due c d x ((handedAt_sublist c d).subset hx)

/-- Every message handed over was published. -/
theorem Account.handed_published (h : b.Account tr) {c : γ} {d : τ} {m : μ}
    (hm : m ∈ (handedAt c d tr).map Prod.snd) : m ∈ publishedAt d tr := by
  obtain ⟨x, hx, rfl⟩ := List.mem_map.mp hm
  exact (h.handed_subscribed hx).1

/-! ## Every step keeps the account -/

/-- A step that publishes nothing and after which no more is due than before. -/
theorem Account.quiet {b' : Broker τ γ ι σ μ} (h : b.Account tr)
    (hpublished : b'.published = b.published) (hnone : ∀ d, publishedAt d os = [])
    (hlive : ∀ d s c i, b'.subscriptions d s = some (c, i) →
      b.subscriptions d s = some (c, i) ∨ (s, i) ∈ subscribedAt c d os)
    (hdue : ∀ c d, (b'.dueAt c d (tr ++ os)).Sublist (b.dueAt c d tr)) :
    b'.Account (tr ++ os) where
  known := by
    intro d
    rw [publishedAt_append, hnone, List.append_nil, hpublished]
    exact h.known d
  once := by
    intro d
    rw [publishedAt_append, hnone, List.append_nil]
    exact h.once d
  live := by
    intro d s c i hs
    rw [subscribedAt_append, List.mem_append]
    exact (hlive d s c i hs).imp_left (h.live d s c i)
  due := by
    intro c d x hx
    obtain ⟨hpub, s, hs⟩ := h.due c d x ((hdue c d).subset hx)
    rw [publishedAt_append, subscribedAt_append]
    exact ⟨List.mem_append_left _ hpub, s, List.mem_append_left _ hs⟩
  follows := by
    intro c d
    rw [publishedAt_append, hnone, List.append_nil]
    exact (h.follows c d).sublist ((hdue c d).map Prod.snd)
  count := by
    intro c d m
    rw [subscribedAt_append, List.length_append]
    have hle := ((hdue c d).map Prod.snd).count_le m
    have hcount := h.count c d m
    omega

omit [DecidableEq γ] [DecidableEq μ] in
/-- A publication is the only thing observed. -/
theorem publishedAt_publish (d d' : τ) (m : μ) :
    publishedAt d' (tr ++ [.published d m]) = publishedAt d' tr ++ if d = d' then [m] else [] := by
  rw [publishedAt_append]
  by_cases hd : d = d' <;> simp [publishedAt, BrokerObs.publishedAt?, hd]

omit [DecidableEq μ] in
/-- What is due at a topic grows by copies of the message published, and only at its own topic. -/
theorem dueAt_publish (b : Broker τ γ ι σ μ) (c : γ) (d d' : τ) (m : μ) (order : List σ) :
    ∃ copies, (b.publish d m order).dueAt c d' (tr ++ [.published d m])
        = b.dueAt c d' tr ++ copies ∧
      (copies = [] ∨ d' = d ∧ copies = share (b.subscriptions d) m order c) := by
  have hhanded : handedAt c d' (tr ++ [.published d m]) = handedAt c d' tr := by
    simp [handedAt, BrokerObs.handedAt?]
  rw [dueAt, hhanded, dueAt]
  simp only [Broker.publish]
  split_ifs with hpresent
  · by_cases hd : d' = d
    · subst hd
      exact ⟨_, by rw [Function.update_self, List.append_assoc], Or.inr ⟨rfl, rfl⟩⟩
    · exact ⟨[], by rw [Function.update_of_ne hd, List.append_nil], Or.inl rfl⟩
  · exact ⟨[], (List.append_nil _).symm, Or.inl rfl⟩

/-- A message published before is not among the copies of another. -/
theorem count_share_of_ne {subscriptions : σ → Option (γ × ι)} {m m' : μ} (hm : m' ≠ m)
    (order : List σ) (c : γ) : ((share subscriptions m order c).map Prod.snd).count m' = 0 := by
  rw [List.count_eq_zero]
  intro hin
  obtain ⟨x, hx, hxm⟩ := List.mem_map.mp hin
  obtain ⟨s, -, -, hm'⟩ := mem_share.mp hx
  exact hm (hxm.symm.trans hm')

/-- What is new is not due yet. -/
theorem Account.count_due_of_new (h : b.Account tr) {c : γ} {d : τ} {m : μ}
    (hnew : m ∉ publishedAt d tr) : ((b.dueAt c d tr).map Prod.snd).count m = 0 := by
  rw [List.count_eq_zero]
  intro hin
  obtain ⟨x, hx, hxm⟩ := List.mem_map.mp hin
  exact hnew (hxm ▸ (h.due c d x hx).1)

/-- **A message more.**  It is new, so nobody has been handed it, and it comes last. -/
theorem Account.publish (h : b.Account tr) {d : τ} {m : μ} {order : List σ}
    (horder : Lists order (b.subscriptions d)) (hfresh : m ∉ b.published) :
    (b.publish d m order).Account (tr ++ [.published d m]) := by
  have hsub : ∀ c' d', subscribedAt c' d' (tr ++ [.published d m]) = subscribedAt c' d' tr := by
    intro c' d'
    simp [subscribedAt, BrokerObs.subscribedAt?]
  have hnew : ∀ d', m ∉ publishedAt d' tr := fun d' hin => hfresh (h.known d' hin)
  refine ⟨?_, ?_, ?_, ?_, ?_, ?_⟩
  · intro d' m' hm'
    rw [publishedAt_publish, List.mem_append] at hm'
    refine List.mem_append.mpr (hm'.imp (fun hold => h.known d' hold) fun hin => ?_)
    split_ifs at hin with hd
    · exact hin
    · cases hin
  · intro d'
    rw [publishedAt_publish]
    split_ifs
    · exact List.nodup_append_comm.mp (List.nodup_cons.mpr ⟨hnew d', h.once d'⟩)
    · rw [List.append_nil]
      exact h.once d'
  · intro d' s c i hs
    rw [hsub]
    by_cases hd : d' = d
    · subst hd
      simp only [Broker.publish, Function.update_self, Option.filter_eq_some_iff] at hs
      exact h.live d' s c i hs.1
    · simp only [Broker.publish, Function.update_of_ne hd] at hs
      exact h.live d' s c i hs
  · intro c d' x hx
    obtain ⟨copies, hcopies, hcase⟩ := dueAt_publish b c d d' m order
    rw [hcopies, List.mem_append] at hx
    rw [publishedAt_publish, hsub]
    rcases hx with hx | hx
    · obtain ⟨hold, hname⟩ := h.due c d' x hx
      exact ⟨List.mem_append_left _ hold, hname⟩
    · rcases hcase with rfl | ⟨rfl, rfl⟩
      · cases hx
      · obtain ⟨s, -, hholder, hm⟩ := mem_share.mp hx
        rw [if_pos rfl, hm]
        exact ⟨List.mem_append_right _ List.mem_cons_self, s, h.live _ _ _ _ hholder⟩
  · intro c d'
    obtain ⟨copies, hcopies, hcase⟩ := dueAt_publish b c d d' m order
    have hold : (b.dueAt c d' tr).map Prod.snd ⊆ publishedAt d' tr := by
      intro m' hm'
      obtain ⟨x, hx, rfl⟩ := List.mem_map.mp hm'
      exact (h.due c d' x hx).1
    rw [hcopies, publishedAt_publish, List.map_append]
    rcases hcase with rfl | ⟨rfl, rfl⟩
    · rw [List.map_nil, List.append_nil]
      exact (h.follows c d').mono (List.sublist_append_left _ _)
    · rw [if_pos rfl]
      refine (h.follows c d').concat hold ?_
      intro m' hm'
      obtain ⟨x, hx, rfl⟩ := List.mem_map.mp hm'
      obtain ⟨s, -, -, hm⟩ := mem_share.mp hx
      exact hm
  · intro c d' m'
    obtain ⟨copies, hcopies, hcase⟩ := dueAt_publish b c d d' m order
    rw [hcopies, hsub, List.map_append, List.count_append]
    rcases hcase with rfl | ⟨rfl, rfl⟩
    · exact h.count c d' m'
    · by_cases hm : m' = m
      · subst hm
        -- it was not due before, and now it is due once for each subscription
        rw [h.count_due_of_new (hnew d'), Nat.zero_add]
        refine Nat.le_trans List.count_le_length ?_
        rw [List.length_map]
        exact length_share_le horder.1 fun s i hs => h.live d' s c i hs
      · rw [count_share_of_ne hm, Nat.add_zero]
        exact h.count c d' m'

variable [DecidableEq σ]

/-- **Every step keeps the account.** -/
theorem Account.step {b' : Broker τ γ ι σ μ} {l : BrokerLabel τ γ ι σ μ} (h : b.Account tr)
    (hstep : lts.step b l = some (b', os)) : b'.Account (tr ++ os) := by
  cases l with
  | subscribe d s c i =>
    simp only [lts, Broker.step, Option.ite_none_right_eq_some, Option.some.injEq,
      Prod.mk.injEq] at hstep
    obtain ⟨-, rfl, rfl⟩ := hstep
    refine h.quiet rfl (fun _ => rfl) ?_ fun c' d' => ?_
    · intro d' s' c' i' hs'
      rcases mem_setSubscription hs' with ⟨rfl, rfl, hholder⟩ | hheld
      · obtain ⟨rfl, rfl⟩ := Prod.mk.inj (Option.some.inj hholder)
        exact Or.inr (by simp [subscribedAt, BrokerObs.subscribedAt?])
      · exact Or.inl hheld
    · have hhanded : handedAt c' d' [.subscribed d s c i] = ([] : List (ι × μ)) := rfl
      rw [dueAt, handedAt_append, hhanded, List.append_nil]
      exact List.Sublist.refl _
  | unsubscribe d s =>
    obtain ⟨rfl, rfl⟩ := Prod.mk.inj (Option.some.inj hstep)
    refine h.quiet rfl (fun _ => rfl) ?_ fun c' d' => ?_
    · intro d' s' c' i' hs'
      rcases mem_setSubscription hs' with ⟨-, -, hholder⟩ | hheld
      · cases hholder
      · exact Or.inl hheld
    · have hhanded : handedAt c' d' [.unsubscribed d s] = ([] : List (ι × μ)) := rfl
      rw [dueAt, handedAt_append, hhanded, List.append_nil]
      exact List.Sublist.refl _
  | publish d m order =>
    simp only [lts, Broker.step, Option.ite_none_right_eq_some, Option.some.injEq,
      Prod.mk.injEq] at hstep
    obtain ⟨⟨horder, hfresh⟩, rfl, rfl⟩ := hstep
    exact h.publish horder hfresh
  | handOver c d =>
    simp only [lts, Broker.step] at hstep
    split at hstep
    · cases hstep
    · rename_i x rest hbox
      obtain ⟨rfl, rfl⟩ := Prod.mk.inj (Option.some.inj hstep)
      refine h.quiet rfl (fun _ => rfl) (fun _ _ _ _ hs => Or.inl hs) fun c' d' => ?_
      rw [dueAt, handedAt_append, dueAt]
      by_cases hc : c' = c
      · subst hc
        by_cases hd : d' = d
        · subst hd
          simp [handedAt, BrokerObs.handedAt?, hbox]
        · simp [handedAt, BrokerObs.handedAt?, Function.update_of_ne hd, Ne.symm hd]
      · simp [handedAt, BrokerObs.handedAt?, Function.update_of_ne hc, Ne.symm hc]
  | leave c =>
    obtain ⟨rfl, rfl⟩ := Prod.mk.inj (Option.some.inj hstep)
    refine h.quiet rfl (fun _ => rfl) (fun _ _ _ _ hs => Or.inl hs) fun c' d' => ?_
    rw [dueAt, List.append_nil, dueAt]
    by_cases hc : c' = c
    · subst hc
      simp
    · simp [Function.update_of_ne hc]

/-- **Every run has its account.** -/
theorem account {C : Broker τ γ ι σ μ → BrokerLabel τ γ ι σ μ → Prop}
    {ls : List (BrokerLabel τ γ ι σ μ)} (h : lts.Run C initial ls tr b) : b.Account tr := by
  refine h.invariant ?_ fun _ ih _ hstep => ih.step hstep
  refine ⟨?_, ?_, ?_, ?_, ?_, ?_⟩
  all_goals simp [initial, publishedAt, dueAt, handedAt, subscribedAt, List.Follows]

end

end Broker
