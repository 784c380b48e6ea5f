import WorkPlatform.Payment.Webhook

/-!
# Payment/Redelivery — one event, delivered any number of times

    GET webhook:razorpay:…        ▸  the statements of the handler  ▸  SET webhook:razorpay:…

The key that marks an event as processed is read before the handler runs and written after it.  Two
deliveries that both read it first both run the handler (`captured_twice`); and a delivery that
stops between its first write and the key leaves work done that the next one does again, or takes
for done.

Where a delivery reads the key only while no other one is at work, none stops between its first
write and the key, and the key does not expire (`Apart`), the tables are those of a single delivery
once one has been answered (`deliveries_once`).
-/

namespace WorkPlatform.Payment

open Machinery

/-! ## Tables -/

/-- The tables a delivery reads or writes, and the queue, are the same. -/
structure SameRows (s t : Store) : Prop where
  payments : t.payments = s.payments
  primary : t.primary = s.primary
  subscriptions : t.subscriptions = s.subscriptions
  outbox : t.outbox = s.outbox
  jobs : t.jobs = s.jobs

namespace SameRows

variable {cfg : Config} {s t u s' : Store} {event : WebhookEvent} {pc pc' : WebhookPc}

theorem refl (s : Store) : SameRows s s := ⟨rfl, rfl, rfl, rfl, rfl⟩

theorem trans (h₁ : SameRows s t) (h₂ : SameRows t u) : SameRows s u where
  payments := h₂.payments.trans h₁.payments
  primary := h₂.primary.trans h₁.primary
  subscriptions := h₂.subscriptions.trans h₁.subscriptions
  outbox := h₂.outbox.trans h₁.outbox
  jobs := h₂.jobs.trans h₁.jobs

theorem symm (h : SameRows s t) : SameRows t s :=
  ⟨h.payments.symm, h.primary.symm, h.subscriptions.symm, h.outbox.symm, h.jobs.symm⟩

/-- **A handler does the same on the same tables**, whatever time it is and whatever the keys. -/
theorem next (h : SameRows s t) (hget : pc ≠ .get)
    (hn : webhookNext cfg s event pc = some (s', pc')) :
    ∃ t', webhookNext cfg t event pc = some (t', pc') ∧ SameRows s' t' := by
  obtain ⟨now, primary, replica, payments, subscriptions, outbox, processed, milestones, jobs⟩ := s
  obtain ⟨now', primary', replica', payments', subscriptions', outbox', processed', milestones',
    jobs'⟩ := t
  obtain ⟨rfl, rfl, rfl, rfl, rfl⟩ := h
  cases pc with
  | get => exact absurd rfl hget
  | received | failed => cases hn
  | capture id orderId payment =>
    rw [webhookNext] at hn ⊢
    dsimp only at hn ⊢
    split at hn <;> obtain ⟨rfl, rfl⟩ := Prod.mk.inj (Option.some.inj hn) <;>
      exact ⟨_, rfl, rfl, rfl, rfl, rfl, rfl⟩
  | fail orderId payment =>
    rw [webhookNext] at hn ⊢
    dsimp only at hn ⊢
    split at hn <;> obtain ⟨rfl, rfl⟩ := Prod.mk.inj (Option.some.inj hn) <;>
      exact ⟨_, rfl, rfl, rfl, rfl, rfl, rfl⟩
  | outbox e =>
    rw [webhookNext] at hn ⊢
    by_cases hid : cfg.isUuid e.entityId = true
    · rw [if_pos hid] at hn ⊢
      obtain ⟨rfl, rfl⟩ := Prod.mk.inj (Option.some.inj hn)
      exact ⟨_, rfl, rfl, rfl, rfl, rfl, rfl⟩
    · rw [if_neg hid] at hn ⊢
      obtain ⟨rfl, rfl⟩ := Prod.mk.inj (Option.some.inj hn)
      exact ⟨_, rfl, rfl, rfl, rfl, rfl, rfl⟩
  | reactivate e =>
    obtain ⟨rfl, rfl⟩ := Prod.mk.inj (Option.some.inj hn)
    refine ⟨_, rfl, ?_⟩
    dsimp only
    split <;> exact ⟨rfl, rfl, rfl, rfl, rfl⟩
  | _ =>
    obtain ⟨rfl, rfl⟩ := Prod.mk.inj (Option.some.inj hn)
    exact ⟨_, rfl, rfl, rfl, rfl, rfl, rfl⟩

end SameRows

/-! ## A delivery by itself -/

/-- The delivery has read the key and has not been answered yet. -/
def WebhookPc.working : WebhookPc → Bool
  | .get | .received | .failed => false
  | _ => true

/-- The delivery has read the key and has written nothing. -/
def WebhookPc.unwritten : WebhookPc → Bool
  | .findCaptured _ _ | .capture _ _ _ | .findFailed _ | .fail _ _ | .findByOrg _
  | .findSubscription _ | .settle _ _ _ => true
  | _ => false

/-- A single delivery comes from `s₀` to this point. -/
def Reaches (cfg : Config) (event : WebhookEvent) (s₀ s : Store) (pc : WebhookPc) : Prop :=
  ∃ n, (paymentMachine cfg).proceed () n (s₀, .webhook event .get) = (s, .webhook event pc)

section Steps

variable {cfg : Config} {s₀ s s' : Store} {event : WebhookEvent} {pc pc' : WebhookPc}

theorem Reaches.next (h : Reaches cfg event s₀ s pc)
    (hn : webhookNext cfg s event pc = some (s', pc')) : Reaches cfg event s₀ s' pc' := by
  obtain ⟨n, hn₀⟩ := h
  refine ⟨n + 1, ?_⟩
  rw [Machine.proceed_add, hn₀, proceed_webhook 0 hn]
  rfl

theorem Reaches.handler (hnew : s₀.alreadyProcessed event.key = false) :
    Reaches cfg event s₀ s₀ event.handler := by
  have hget : webhookNext cfg s₀ event .get = some (s₀, event.handler) := by
    rw [webhookNext, hnew]
    rfl
  exact Reaches.next ⟨0, rfl⟩ hget

theorem Reaches.duplicate (hold : s₀.alreadyProcessed event.key = true) :
    Reaches cfg event s₀ s₀ .received := by
  have hget : webhookNext cfg s₀ event .get = some (s₀, .received) := by
    rw [webhookNext, hold]
    rfl
  exact Reaches.next ⟨0, rfl⟩ hget

/-- Where a single delivery is answered 200, it comes to no other end. -/
theorem Reaches.eq_deliver (hsingle : (deliver cfg s₀ event).2 = .webhook event .received)
    (h : Reaches cfg event s₀ s pc) (hend : webhookNext cfg s event pc = none) :
    pc = .received ∧ s = (deliver cfg s₀ event).1 := by
  obtain ⟨n, hn⟩ := h
  have hend' : Payment.next cfg s (.webhook event pc) = none := congrArg (Option.map _) hend
  have heq := Machine.proceed_end hn (rfl : _ = deliver cfg s₀ event) hend' (by rw [hsingle]; rfl)
  have hpc : Call.webhook event pc = .webhook event .received :=
    (congrArg Prod.snd heq).trans hsingle
  exact ⟨(Call.webhook.inj hpc).2, congrArg Prod.fst heq⟩

theorem working_handler (event : WebhookEvent) : event.handler.working = true := by
  unfold WebhookEvent.handler
  split
  · split <;> rfl
  · split <;> rfl
  all_goals rfl

/-- A statement of a handler leaves the keys alone, until it sets its own. -/
theorem processed_next (hw : pc.working = true)
    (hn : webhookNext cfg s event pc = some (s', pc')) :
    s' = s.markProcessed event.key ∧ pc' = .received
      ∨ s'.now = s.now ∧ s'.processed = s.processed ∧ (pc'.working = true ∨ pc' = .failed) := by
  cases pc with
  | get | received | failed => cases hw
  | set =>
    obtain ⟨rfl, rfl⟩ := Prod.mk.inj (Option.some.inj hn)
    exact Or.inl ⟨rfl, rfl⟩
  | capture id orderId payment =>
    rw [webhookNext] at hn
    split at hn <;> obtain ⟨rfl, rfl⟩ := Prod.mk.inj (Option.some.inj hn)
    · exact Or.inr ⟨rfl, rfl, Or.inr rfl⟩
    · exact Or.inr ⟨rfl, rfl, Or.inl rfl⟩
  | fail orderId payment =>
    rw [webhookNext] at hn
    split at hn <;> obtain ⟨rfl, rfl⟩ := Prod.mk.inj (Option.some.inj hn)
    · exact Or.inr ⟨rfl, rfl, Or.inr rfl⟩
    · exact Or.inr ⟨rfl, rfl, Or.inl rfl⟩
  | outbox e =>
    rw [webhookNext] at hn
    split at hn <;> obtain ⟨rfl, rfl⟩ := Prod.mk.inj (Option.some.inj hn)
    · exact Or.inr ⟨rfl, rfl, Or.inl rfl⟩
    · exact Or.inr ⟨rfl, rfl, Or.inr rfl⟩
  | reactivate e =>
    obtain ⟨rfl, rfl⟩ := Prod.mk.inj (Option.some.inj hn)
    refine Or.inr ?_
    split <;> exact ⟨rfl, rfl, Or.inl rfl⟩
  | findByOrg id =>
    obtain ⟨rfl, rfl⟩ := Prod.mk.inj (Option.some.inj hn)
    refine Or.inr ⟨rfl, rfl, ?_⟩
    split
    · exact Or.inl rfl
    · exact Or.inr rfl
  | findCaptured id orderId =>
    obtain ⟨rfl, rfl⟩ := Prod.mk.inj (Option.some.inj hn)
    refine Or.inr ⟨rfl, rfl, Or.inl ?_⟩
    split
    · rfl
    · split <;> rfl
  | findFailed _ | findSubscription _ | settle _ _ _ =>
    obtain ⟨rfl, rfl⟩ := Prod.mk.inj (Option.some.inj hn)
    refine Or.inr ⟨rfl, rfl, Or.inl ?_⟩
    split <;> rfl
  | enqueue orgId =>
    obtain ⟨rfl, rfl⟩ := Prod.mk.inj (Option.some.inj hn)
    exact Or.inr ⟨rfl, rfl, Or.inl rfl⟩

/-- A delivery that has written nothing had written nothing before. -/
theorem unwritten_next (hw : pc.working = true) (hn : webhookNext cfg s event pc = some (s', pc'))
    (hpc' : pc'.unwritten = true) : pc.unwritten = true ∧ s' = s := by
  cases pc with
  | get | received | failed => cases hw
  | capture _ _ _ | fail _ _ | outbox _ =>
    rw [webhookNext] at hn
    split at hn <;> obtain ⟨rfl, rfl⟩ := Prod.mk.inj (Option.some.inj hn) <;> cases hpc'
  | settle _ _ _ =>
    obtain ⟨rfl, rfl⟩ := Prod.mk.inj (Option.some.inj hn)
    split at hpc' <;> cases hpc'
  | findCaptured _ _ | findFailed _ | findByOrg _ | findSubscription _ =>
    obtain ⟨rfl, rfl⟩ := Prod.mk.inj (Option.some.inj hn)
    exact ⟨rfl, rfl⟩
  | _ =>
    obtain ⟨-, rfl⟩ := Prod.mk.inj (Option.some.inj hn)
    cases hpc'

end Steps

/-! ## Runs -/

/-- The delivery is at work. -/
def Call.working : Call → Bool
  | .webhook _ pc => pc.working
  | _ => false

/-- The delivery is at work and has written nothing. -/
def Call.unwritten : Call → Bool
  | .webhook _ pc => pc.unwritten
  | _ => false

section Runs

variable {ι : Type*} {cfg : Config} {event : WebhookEvent} {s₀ : Store}

/-- **The deliveries keep apart**: one reads the key only while no other is at work, none stops
between its first write and the key, and the key does not expire. -/
def Apart (event : WebhookEvent) (p : Calls ι) : Move ι Unit Env → Prop
  | .run i _ => (p.calls i).Keeps fun c => c = .webhook event .get →
      ∀ j, ¬ (p.calls j).Live fun c => c.working
  | .crash i => (p.calls i).Keeps fun c => c.working = true → c.unwritten = true
  | .env (.tick ms) => ∀ t ∈ p.store.processed event.key, p.store.now < t → p.store.now + ms < t
  | .env .replicate => True

/-- Who is at work on an event nobody has answered yet: nobody, and the tables are as they were; or
one delivery, on its way from there. -/
inductive Working (cfg : Config) (event : WebhookEvent) (s₀ : Store) (p : Calls ι) : Prop
  | nobody (hidle : ∀ i, ¬ (p.calls i).Live fun c => c.working) (hrows : SameRows s₀ p.store)
  | one {i : ι} {pc : WebhookPc} {s : Store} (hi : p.calls i = .up (.webhook event pc))
      (hpc : pc.working = true) (halone : ∀ j, ((p.calls j).Live fun c => c.working) → j = i)
      (hreaches : Reaches cfg event s₀ s pc) (hrows : SameRows s p.store)
      (hunwritten : pc.unwritten = true → SameRows s₀ p.store)

/-- What such runs keep: the event is not processed, and one delivery at most is at work on it; or
it is, nobody is at work, and the tables are those of a single delivery. -/
inductive Once (cfg : Config) (event : WebhookEvent) (s₀ : Store) (p : Calls ι) : Prop
  | before (hnew : p.store.alreadyProcessed event.key = false)
      (hnew₀ : s₀.alreadyProcessed event.key = false)
      (hreceived : ∀ i, (p.calls i).at' ≠ .webhook event .received)
      (hworking : Working cfg event s₀ p)
  | after {s : Store} (hold : p.store.alreadyProcessed event.key = true)
      (hidle : ∀ i, ¬ (p.calls i).Live fun c => c.working)
      (hreaches : Reaches cfg event s₀ s .received) (hrows : SameRows s p.store)

/-- The calls are deliveries of the event. -/
def Deliveries (event : WebhookEvent) (p : Calls ι) : Prop :=
  ∀ i, ∃ pc, (p.calls i).at' = .webhook event pc

variable [DecidableEq ι] {p q : Calls ι} {i : ι}

omit [DecidableEq ι] in
/-- Before the first statement the invariant holds. -/
theorem once_start (hstart : ∀ i, p.calls i = .up (.webhook event .get)) :
    Once cfg event p.store p := by
  have hidle : ∀ i, ¬ (p.calls i).Live fun c => c.working := by
    intro i
    rw [hstart i]
    exact Bool.false_ne_true
  cases hnew : p.store.alreadyProcessed event.key with
  | false =>
    refine .before hnew hnew (fun i => ?_) (.nobody hidle (.refl _))
    rw [hstart i]
    exact nofun
  | true => exact .after hnew hidle (.duplicate hnew) (.refl _)

/-- A delivery that moves on to a point where it is not at work leaves nobody at work, where nobody
else was. -/
theorem idle_update {c : Call} (hothers : ∀ j, ((p.calls j).Live fun c => c.working) → j = i)
    (hc : c.working ≠ true) :
    ∀ j, ¬ (Function.update p.calls i (.up c) j).Live fun c => c.working := by
  intro j hj
  rcases live_update_up hj with ⟨-, hself⟩ | ⟨hne, hother⟩
  · exact hc hself
  · exact hne (hothers j hother)

/-- The first statement of a delivery keeps the event to one processing. -/
theorem once_get {d : Unit} {s' : Store} {pc' : WebhookPc} (hI : Once cfg event s₀ p)
    (hG : Apart event p (.run i d)) (hi : p.calls i = .up (.webhook event .get))
    (hn : webhookNext cfg p.store event .get = some (s', pc')) :
    Once cfg event s₀ ⟨s', Function.update p.calls i (.up (.webhook event pc'))⟩ := by
  rw [Apart, hi] at hG
  have hidle := hG rfl
  obtain ⟨rfl, rfl⟩ := Prod.mk.inj (Option.some.inj hn)
  cases hI with
  | before hnew hnew₀ hreceived hworking =>
    have hrows : SameRows s₀ p.store := by
      cases hworking with
      | nobody _ hrows => exact hrows
      | @one j pc s hj hpc _ _ _ _ =>
        refine absurd ?_ (hidle j)
        rw [hj]
        exact hpc
    rw [hnew]
    refine .before hnew hnew₀ (fun j hj => ?_) (.one (Function.update_self _ _ _)
      (working_handler event) (fun j hj => ?_) (.handler hnew₀) hrows fun _ => hrows)
    · rcases update_cases (fun x : Proc Call => x.at' = .webhook event .received) hj with
        ⟨-, hself⟩ | ⟨-, hother⟩
      · have hhandler : event.handler = .received := (Call.webhook.inj hself).2
        have hw := working_handler event
        rw [hhandler] at hw
        cases hw
      · exact hreceived j hother
    · rcases live_update_up hj with ⟨hself, -⟩ | ⟨-, hother⟩
      · exact hself
      · exact absurd hother (hidle j)
  | after hold _ hreaches hrows =>
    rw [hold]
    refine .after hold (idle_update (fun j hj => absurd hj (hidle j)) ?_) hreaches hrows
    exact Bool.false_ne_true

theorem alreadyProcessed_markProcessed (s : Store) (key : WebhookKey) :
    (s.markProcessed key).alreadyProcessed key = true := by
  have hpos : 0 < Store.idempotencyTtl := by decide
  rw [Store.alreadyProcessed, Store.markProcessed]
  dsimp only
  rw [Function.update_self, Option.any_some, decide_eq_true_iff]
  exact Nat.lt_add_of_pos_right hpos

/-- So does a statement of a delivery that is processing it. -/
theorem once_work {s' : Store} {pc pc' : WebhookPc}
    (hsingle : (deliver cfg s₀ event).2 = .webhook event .received) (hI : Once cfg event s₀ p)
    (hi : p.calls i = .up (.webhook event pc)) (hpc : pc.working = true)
    (hn : webhookNext cfg p.store event pc = some (s', pc')) :
    Once cfg event s₀ ⟨s', Function.update p.calls i (.up (.webhook event pc'))⟩ := by
  have hlive : (p.calls i).Live fun c => c.working := by
    rw [hi]
    exact hpc
  cases hI with
  | after _ hidle _ _ => exact absurd hlive (hidle i)
  | before hnew hnew₀ hreceived hworking =>
    cases hworking with
    | nobody hidle _ => exact absurd hlive (hidle i)
    | @one j pc₁ s hj _ halone hreaches hrows hunwritten =>
      obtain rfl := halone i hlive
      obtain rfl : pc₁ = pc := (Call.webhook.inj (Proc.up.inj (hj.symm.trans hi))).2
      have hget : pc₁ ≠ .get := by
        rintro rfl
        cases hpc
      obtain ⟨t, ht, hrows'⟩ := hrows.symm.next hget hn
      have hreaches' := hreaches.next ht
      rcases processed_next hpc hn with ⟨rfl, rfl⟩ | ⟨hnow, hprocessed, hgoing⟩
      · refine .after (alreadyProcessed_markProcessed _ _) (idle_update halone ?_) hreaches'
          hrows'.symm
        exact Bool.false_ne_true
      · have hworking' : pc'.working = true := by
          refine hgoing.resolve_right ?_
          rintro rfl
          cases (hreaches'.eq_deliver hsingle rfl).1
        refine .before ?_ hnew₀ (fun k hk => ?_) (.one (Function.update_self _ _ _) hworking'
          (fun k hk => ?_) hreaches' hrows'.symm fun hu => ?_)
        · rw [Store.alreadyProcessed, hnow, hprocessed]
          exact hnew
        · rcases update_cases (fun x : Proc Call => x.at' = .webhook event .received) hk with
            ⟨-, hself⟩ | ⟨-, hother⟩
          · rw [(Call.webhook.inj hself).2] at hworking'
            cases hworking'
          · exact hreceived k hother
        · rcases live_update_up hk with ⟨hself, -⟩ | ⟨-, hother⟩
          · exact hself
          · exact halone k hother
        · obtain ⟨hu₁, rfl⟩ := unwritten_next hpc hn hu
          exact hunwritten hu₁

/-- So does a crash of another call. -/
theorem once_crash {c : Call} (hI : Once cfg event s₀ p) (hG : Apart event p (.crash i))
    (hi : p.calls i = .up c) :
    Once cfg event s₀ ⟨p.store, Function.update p.calls i (.down c)⟩ := by
  rw [Apart, hi] at hG
  cases hI with
  | after hold hidle hreaches hrows =>
    exact .after hold (fun j hj => hidle j (live_update_down hj).2) hreaches hrows
  | before hnew hnew₀ hreceived hworking =>
    refine .before hnew hnew₀ (fun j => ?_) ?_
    · dsimp only
      rw [at'_update_down hi]
      exact hreceived j
    cases hworking with
    | nobody hidle hrows => exact .nobody (fun j hj => hidle j (live_update_down hj).2) hrows
    | @one j pc s hj hpc halone hreaches hrows hunwritten =>
      by_cases hij : i = j
      · -- the one at work stops, and has written nothing
        subst hij
        obtain rfl := Proc.up.inj (hj.symm.trans hi)
        refine .nobody (fun k hk => ?_) (hunwritten (hG hpc))
        obtain ⟨hne, hother⟩ := live_update_down hk
        exact hne (halone k hother)
      · refine .one (i := j) ?_ hpc (fun k hk => halone k (live_update_down hk).2) hreaches hrows
          hunwritten
        dsimp only
        rw [Function.update_of_ne (Ne.symm hij), hj]

omit [DecidableEq ι] in
/-- So does what happens around the calls. -/
theorem once_env {e : Env} (hI : Once cfg event s₀ p) (hG : Apart event p (.env e)) :
    Once cfg event s₀ ⟨env p.store e, p.calls⟩ := by
  have hrows : ∀ {s}, SameRows s p.store → SameRows s (env p.store e) := by
    intro s h
    cases e <;> exact ⟨h.payments, h.primary, h.subscriptions, h.outbox, h.jobs⟩
  cases hI with
  | after hold hidle hreaches hsame =>
    refine .after ?_ hidle hreaches (hrows hsame)
    cases e with
    | replicate => exact hold
    | tick ms =>
      obtain ⟨t, ht, hlt⟩ := (Option.any_eq_true _ _).mp hold
      exact (Option.any_eq_true _ _).mpr ⟨t, ht, decide_eq_true (hG t ht (of_decide_eq_true hlt))⟩
  | before hnew hnew₀ hreceived hworking =>
    refine .before ?_ hnew₀ hreceived ?_
    · cases e with
      | replicate => exact hnew
      | tick ms =>
        refine eq_false_of_ne_true fun hold => ?_
        obtain ⟨t, ht, hlt⟩ := (Option.any_eq_true _ _).mp hold
        have hlt' : p.store.now < t := Nat.lt_of_le_of_lt (Nat.le_add_right _ ms)
          (of_decide_eq_true hlt)
        have hold' : p.store.alreadyProcessed event.key = true :=
          (Option.any_eq_true _ _).mpr ⟨t, ht, decide_eq_true hlt'⟩
        rw [hnew] at hold'
        cases hold'
    · cases hworking with
      | nobody hidle hsame => exact .nobody hidle (hrows hsame)
      | one hj hpc halone hreaches hsame hunwritten =>
        exact .one hj hpc halone hreaches (hrows hsame) fun hu => hrows (hunwritten hu)

/-- The event is processed once, in every state of such a run. -/
theorem once_run (hsingle : (deliver cfg s₀ event).2 = .webhook event .received)
    (hdeliveries : Deliveries event p) (hI : Once cfg event s₀ p)
    (h : Run (Pool.step (paymentMachine cfg)) (Apart event) p q) : Once cfg event s₀ q := by
  refine (Pool.invariant (I := fun p : Calls ι => Deliveries event p ∧ Once cfg event s₀ p)
    ⟨hdeliveries, hI⟩ ?_ ?_ ?_ h).2
  · rintro p i d c s' c' ⟨hdeliveries, hI⟩ hG hc hnext
    obtain ⟨pc, hpc⟩ := hdeliveries i
    rw [hc] at hpc
    obtain rfl : c = .webhook event pc := hpc
    obtain ⟨pc', hn, rfl⟩ := pc_of_next hnext
    constructor
    · exact (Function.forall_update_iff p.calls fun _ (x : Proc Call) =>
        ∃ pc, x.at' = .webhook event pc).mpr ⟨⟨pc', rfl⟩, fun j _ => hdeliveries j⟩
    · by_cases hw : pc.working = true
      · exact once_work hsingle hI hc hw hn
      · cases pc with
        | get => exact once_get hI hG hc hn
        | received | failed => cases hn
        | _ => exact absurd rfl hw
  · rintro p i c ⟨hdeliveries, hI⟩ hG hc
    refine ⟨fun j => ?_, once_crash hI hG hc⟩
    dsimp only
    rw [at'_update_down hc]
    exact hdeliveries j
  · rintro p e ⟨hdeliveries, hI⟩ hG
    exact ⟨hdeliveries, once_env hI hG⟩

/-- **Once.**  As soon as one delivery of the event is answered 200, the rows of payments and
organisations, the outbox and the queue are those a single delivery would have left; and they stay
so. -/
theorem deliveries_once (hstart : ∀ i, p.calls i = .up (.webhook event .get))
    (hsingle : (deliver cfg p.store event).2 = .webhook event .received)
    (h : Run (Pool.step (paymentMachine cfg)) (Apart event) p q)
    (hi : (q.calls i).at' = .webhook event .received) :
    q.store.payments = (deliver cfg p.store event).1.payments
      ∧ q.store.primary = (deliver cfg p.store event).1.primary
      ∧ q.store.outbox = (deliver cfg p.store event).1.outbox
      ∧ q.store.jobs = (deliver cfg p.store event).1.jobs := by
  have hdeliveries : Deliveries event p := fun i => ⟨.get, by rw [hstart i]; rfl⟩
  cases once_run hsingle hdeliveries (once_start hstart) h with
  | before _ _ hreceived _ => exact absurd hi (hreceived i)
  | after _ _ hreaches hrows =>
    obtain ⟨-, rfl⟩ := hreaches.eq_deliver hsingle rfl
    exact ⟨hrows.payments, hrows.primary, hrows.outbox, hrows.jobs⟩

end Runs

instance {ι : Type*} [Fintype ι] (event : WebhookEvent) (p : Calls ι) :
    ∀ m : Move ι Unit Env, Decidable (Apart event p m)
  | .run i _ => inferInstanceAs (Decidable ((p.calls i).Keeps fun c => c = .webhook event .get →
      ∀ j, ¬ (p.calls j).Live fun c => c.working))
  | .crash i => inferInstanceAs (Decidable
      ((p.calls i).Keeps fun c => c.working = true → c.unwritten = true))
  | .env (.tick ms) => inferInstanceAs (Decidable
      (∀ t ∈ p.store.processed event.key, p.store.now < t → p.store.now + ms < t))
  | .env .replicate => inferInstanceAs (Decidable True)

/-! ## A capture, delivered two or three times -/

def demoCapture : WebhookEvent := .paymentCaptured "pay_1" (some "order_1")

/-- Deliveries of the capture, none begun. -/
def redelivered (n : ℕ) : Calls (Fin n) := ⟨webhookStore, fun _ => .up (.webhook demoCapture .get)⟩

/-- **Captured twice**: both deliveries read the key and the payment before either writes, and each
writes its event. -/
theorem captured_twice :
    (deliver webhookConfig webhookStore demoCapture).2 = .webhook demoCapture .received
      ∧ (deliver webhookConfig webhookStore demoCapture).1.outbox =
        [⟨.paymentCaptured, demoOrgUuid, demoPaymentUuid⟩]
      ∧ ∃ q, Run (Pool.step (paymentMachine webhookConfig)) anyStep (redelivered 2) q
        ∧ (∀ i, q.calls i = .up (.webhook demoCapture .received))
        ∧ q.store.outbox = [⟨.paymentCaptured, demoOrgUuid, demoPaymentUuid⟩,
          ⟨.paymentCaptured, demoOrgUuid, demoPaymentUuid⟩] := by
  refine ⟨by decide, by decide, ?_⟩
  obtain ⟨q, hq, h⟩ := exists_run_of_exec (Pool.step (paymentMachine webhookConfig)) anyStep
    (redelivered 2) (List.flatten [[.run 0 (), .run 1 (), .run 0 (), .run 1 ()],
      List.replicate 4 (.run 0 ()), List.replicate 4 (.run 1 ())])
    (fun q => (∀ i, q.calls i = .up (.webhook demoCapture .received))
      ∧ q.store.outbox = [⟨.paymentCaptured, demoOrgUuid, demoPaymentUuid⟩,
        ⟨.paymentCaptured, demoOrgUuid, demoPaymentUuid⟩]) (by decide)
  exact ⟨q, hq, of_decide_eq_true h⟩

/-- A delivery that stops before it has written anything, one that does the work, and a
duplicate. -/
theorem captured_once :
    ∃ q, Run (Pool.step (paymentMachine webhookConfig)) (Apart demoCapture) (redelivered 3) q
      ∧ (∃ c, q.calls 0 = .down c) ∧ q.calls 2 = .up (.webhook demoCapture .received)
      ∧ q.store.outbox = (deliver webhookConfig webhookStore demoCapture).1.outbox := by
  obtain ⟨q, hq, h⟩ := exists_run_of_exec (Pool.step (paymentMachine webhookConfig))
    (Apart demoCapture) (redelivered 3) (List.flatten [[.run 0 (), .run 0 (), .crash 0],
      List.replicate 6 (.run 1 ()), [.env (.tick 1000), .run 2 ()]])
    (fun q => q.calls 0 ≠ .up (q.calls 0).at'
      ∧ q.calls 2 = .up (.webhook demoCapture .received)) (by decide)
  obtain ⟨hdown, hreceived⟩ := of_decide_eq_true h
  have hat : (q.calls 2).at' = .webhook demoCapture .received := by
    rw [hreceived]
    rfl
  refine ⟨q, hq, ?_, hreceived, ?_⟩
  · cases hc : q.calls 0 with
    | up c => rw [hc] at hdown; exact absurd rfl hdown
    | down c => exact ⟨c, rfl⟩
  · exact (deliveries_once (fun _ => rfl) (by decide) hq hat).2.2.1

end WorkPlatform.Payment
