import Parley.Proofs.Abreast
import Parley.Proofs.Passive
import Parley.Script.Story

/-!
This module contains that a dialogue is driven alike from within and from without. A handler that
answers each event while it is delivered, and a host that answers it once the call has returned,
make the story go on in the same way, and all others hear the same.
-/

namespace Parley

inductive Reaction where
  | advance
  | choose (index : Nat)

def Reaction.request {S E : Type} : Reaction → Operation S E
  | .advance => .advance
  | .choose index => .choose index true

theorem Reaction.isProgress {S E : Type} (r : Reaction)
    : (r.request : Operation S E).isProgress = true := by
  cases r with
  | _ => rfl

/--
The handler that does about an event what a policy says, while it is delivered.
-/
def driver {S E : Type} (policy : Event → Option Reaction) : Handler S E := fun event =>
  match policy event with
  | none => .done
  | some reaction => .perform reaction.request fun _ => .done

namespace Engine

variable {S E T : Type} [Engine S E]

/--
Whether going on and choosing heed nothing of the host's memory but what is shared with the stories
of a kind.
-/
structure Heeds (P : E → Prop) (share : S → T) : Prop where
  continueOne : ∀ {story memory memory'}, P story → share memory' = share memory →
    let (result, story₁, world) := Engine.continueOne story ⟨memory, []⟩
    let (result', story₂, world') := Engine.continueOne story ⟨memory', []⟩
    result' = result ∧ P story₁ ∧ story₂ = story₁ ∧ share world'.memory = share world.memory
  choose : ∀ {story}, P story → ∀ index, P (Engine.choose story index).2

def same (P : E → Prop) (share : S → T) : E → S → E → S → Prop := fun story memory other memory' =>
  P story ∧ other = story ∧ share memory' = share memory

theorem Heeds.bisimilar {P : E → Prop} {share : S → T} (h : Heeds P share)
    : Bisimilar (same P share) where
  canContinue := by
    rintro story memory _ memory' ⟨_, rfl, _⟩
    rfl
  choices := by
    rintro story memory _ memory' ⟨_, rfl, _⟩
    rfl
  continueOne := by
    rintro story memory _ memory' ⟨hstory, rfl, hshare⟩
    exact h.continueOne hstory hshare
  choose := by
    rintro story memory _ memory' ⟨hstory, rfl, hshare⟩ index
    exact ⟨rfl, h.choose hstory index, rfl, hshare⟩

-- Nothing is asked of a story when all memory is shared.
theorem heeds_id : Heeds (fun _ : E => True) (id : S → S) where
  continueOne := by
    rintro story memory memory' _ rfl
    exact ⟨rfl, trivial, rfl, rfl⟩
  choose _ _ := trivial

end Engine

namespace Session

variable {S E : Type} [Engine S E] {R : E → S → E → S → Prop} {s t : Session S E}

section Calls

variable (hR : Engine.Bisimilar R)

include hR

theorem Abreast.stepCalls (h : Abreast R s t) : t.stepCalls = s.stepCalls := by
  obtain ⟨story, other, hs, ht, hrelated⟩ := h.stories
  have hcontinue : (Engine.continueOne other t.world.unwritten).1
      = (Engine.continueOne story s.world.unwritten).1 := (hR.continueOne hrelated).1
  unfold Session.stepCalls
  simp only [hs, ht, hR.canContinue hrelated, hR.choices hrelated, hcontinue]

theorem Abreast.commitCalls (h : Abreast R s t) (index : Nat)
    : t.commitCalls index = s.commitCalls index := by
  obtain ⟨story, other, hs, ht, hrelated⟩ := h.stories
  have hchoose : (Engine.choose other index).1 = (Engine.choose story index).1 :=
    (hR.choose hrelated index).1
  unfold Session.commitCalls
  simp only [hs, ht, hR.choices hrelated, hchoose]

theorem Abreast.calls (h : Abreast R s t) (move : Move S E) : t.calls move = s.calls move := by
  have hchoose : ∀ index autoAdvance,
      t.chooseCalls index autoAdvance = s.chooseCalls index autoAdvance := by
    intro index autoAdvance
    obtain ⟨hresult, htogether⟩ := h.commit hR index
    unfold Session.chooseCalls
    rw [h.commitCalls hR index, hresult, htogether.abreast.stepCalls hR]
  unfold Session.calls
  rw [h.left, h.right]
  split
  . exact h.stepCalls hR
  . exact h.stepCalls hR
  . exact hchoose _ _
  . exact hchoose _ _
  . rfl

end Calls

/--
Whether two sessions are abreast and their runners differ in their handlers alone, apart from
deliveries that are under way.
-/
structure Even (R : E → S → E → S → Prop) (s t : Session S E) : Prop where
  abreast : Abreast R s t
  runner : s.runner = { t.runner with
    registry := s.runner.registry, dispatching := s.runner.dispatching }

theorem Even.perform (h : Even R s t) (hR : Engine.Bisimilar R)
    (hsame : ∀ story memory other memory', R story memory other memory' → other = story)
    {request : Operation S E} (hprogress : request.isProgress = true)
    : ∃ reply event s' t', s.perform request = (some reply, s'.enqueue? event) ∧
        t.perform request = (some reply, t'.enqueue? event) ∧ Onward s s' ∧ Onward t t' ∧
        Even R (s'.enqueue? event) (t'.enqueue? event) ∧ ∀ e ∈ event, e.kind.isShown = true := by
  obtain ⟨reply, event, s', t', hs, ht, htogether, hshown⟩ := h.abreast.perform hR hprogress
  obtain ⟨hline, hchoices⟩ := htogether.shown (by rw [h.runner]) (by rw [h.runner])
  have hstory : s'.runner.story = t'.runner.story := by
    obtain ⟨story, other, hs', ht', hrelated⟩ := htogether.abreast.stories
    rw [hs', ht', hsame _ _ _ _ hrelated]
  have hrunner : s'.runner = { t'.runner with
      registry := s'.runner.registry, dispatching := s'.runner.dispatching } := by
    rw [htogether.left.runner, htogether.right.runner, hstory, hline, hchoices, h.runner]
  refine ⟨reply, event, s', t', hs, ht, htogether.left, htogether.right, ?_, hshown⟩
  cases event with
  | none => exact ⟨htogether.abreast, hrunner⟩
  | some event =>
    refine ⟨⟨htogether.abreast.left, htogether.abreast.right, htogether.abreast.stories⟩, ?_⟩
    have hpending : s'.runner.pending = t'.runner.pending := by
      rw [hrunner]
    rw [enqueue?, enqueue?, Option.elim, Option.elim, enqueue_runner, enqueue_runner,
      hpending, hrunner]

omit [Engine S E] in
theorem Abreast.same_of {P : E → Prop} {T : Type}
    {share : S → T} {s' t' : Session S E} (h : Abreast (Engine.same P share) s t)
    (hstory : s'.runner.story = s.runner.story) (hpaused : s'.runner.paused = s.runner.paused)
    (hmemory : share s'.world.memory = share s.world.memory)
    (hstory' : t'.runner.story = t.runner.story) (hpaused' : t'.runner.paused = t.runner.paused)
    (hmemory' : share t'.world.memory = share t.world.memory)
    : Abreast (Engine.same P share) s' t' := by
  obtain ⟨story, other, hs, ht, hstoried, hsame, hshare⟩ := h.stories
  refine ⟨hpaused.trans h.left, hpaused'.trans h.right, story, other, hstory.trans hs,
    hstory'.trans ht, hstoried, hsame, ?_⟩
  rw [hmemory, hmemory', hshare]

omit [Engine S E] in
theorem Even.same_of {P : E → Prop} {T : Type} {share : S → T} {s' t' : Session S E}
    (h : Even (Engine.same P share) s t) {pending : List Event} {underway underway' : Bool}
    (hs : s'.runner = { s.runner with pending, dispatching := underway })
    (hmemory : share s'.world.memory = share s.world.memory)
    (ht : t'.runner = { t.runner with pending, dispatching := underway' })
    (hmemory' : share t'.world.memory = share t.world.memory)
    : Even (Engine.same P share) s' t' where
  abreast := h.abreast.same_of (by rw [hs]) (by rw [hs]) hmemory (by rw [ht]) (by rw [ht]) hmemory'
  runner := by
    rw [hs, ht, h.runner]

end Session

def Grow {α : Type} (xs ys xs' ys' : List α) : Prop :=
  ∃ zs, xs' = xs ++ zs ∧ ys' = ys ++ zs

section Grow

variable {α : Type} {xs ys xs' ys' xs'' ys'' : List α}

theorem Grow.refl : Grow xs ys xs ys := by
  exact ⟨[], (List.append_nil _).symm, (List.append_nil _).symm⟩

theorem Grow.trans (h : Grow xs ys xs' ys') (h' : Grow xs' ys' xs'' ys'')
    : Grow xs ys xs'' ys'' := by
  obtain ⟨zs, hxs, hys⟩ := h
  obtain ⟨zs', hxs', hys'⟩ := h'
  refine ⟨zs ++ zs', ?_, ?_⟩
  . rw [hxs', hxs, List.append_assoc]
  . rw [hys', hys, List.append_assoc]

end Grow

namespace Course

variable {S E T : Type} [Engine S E]

def Asks (c : Course S E) (request : Operation S E) (c' : Course S E) : Prop :=
  ∃ bound reply, c.now.request bound request = (some reply, c'.now) ∧
    outcome (Walk.request bound request) c = (some reply, c')

/--
What a policy says about the events of the requests between two moments. A request for progress
emits one at most.
-/
def reaction (policy : Event → Option Reaction) (c c' : Course S E) : Option Reaction :=
  (c.now.emittedSince c'.now).findSome? policy

/--
Whether a host that follows a policy comes to an end: it makes a request, and does then about the
event what the policy says, until there is nothing to be done.
-/
inductive Steers (policy : Event → Option Reaction)
    : Course S E → Reaction → Course S E → Prop where
  | halts {c c' : Course S E} {r : Reaction} (asks : c.Asks r.request c')
      (rests : reaction policy c c' = none) : Steers policy c r c'
  | goes {c c' c'' : Course S E} {r r' : Reaction} (asks : c.Asks r.request c')
      (reacts : reaction policy c c' = some r') (rest : Steers policy c' r' c'')
      : Steers policy c r c''

/--
The calls of all handlers but those of a driver, in order and under other names.
-/
def transcript (drivers : List Token) (name : Token → Token) (c : Course S E)
    : List (Token × Event) :=
  ((History.heard c.now.history).filter (·.1 ∉ drivers)).map fun call => (name call.1, call.2)

/--
Whether two runs that went on differ in their handlers alone, and whether meanwhile the same was
recorded and the same calls were made of their stories.
-/
structure Concur (drivers : List Token) (name : Token → Token) (a b a' b' : Course S E) : Prop where
  runner : a'.now.runner = { b'.now.runner with registry := a.now.runner.registry }
  recorded : Grow (transcript drivers name a) (History.heard b.now.history)
    (transcript drivers name a') (History.heard b'.now.history)
  calls : Grow a.calls b.calls a'.calls b'.calls

/--
Whether one registry has just one handler more than another for each event that a driver may see:
the driver, wherever it stands among handlers that only listen. Their tokens may differ, since all
are numbered in one row.
-/
def Drives (share : S → T) (policy : Event → Option Reaction) (drivers : List Token)
    (name : Token → Token) (registry registry' : Registry (Handler S E)) : Prop :=
  ∀ kind, kind.isShown = true → ∃ front token back,
    registry.handlers kind = front ++ (token, driver policy) :: back ∧
      registry'.handlers kind = (front ++ back).map (fun entry => (name entry.1, entry.2)) ∧
      token ∈ drivers ∧
      (∀ entry ∈ front ++ back, entry.1 ∉ drivers) ∧ Listen share (front ++ back)

section Level

variable (P : E → Prop) (share : S → T) (drivers : List Token) (name : Token → Token)

/--
Whether two runs have come so far that the same was recorded, the same calls were made of their
stories, and their runners differ in their handlers alone, apart from deliveries that are under way.
-/
structure Level (a₀ b₀ a b : Course S E) : Prop where
  even : Session.Even (Engine.same P share) a.now b.now
  left : a.now.runner.registry = a₀.now.runner.registry
  right : b.now.runner.registry = b₀.now.runner.registry
  recorded : Grow (transcript drivers name a₀) (History.heard b₀.now.history)
    (transcript drivers name a) (History.heard b.now.history)
  calls : Grow a₀.calls b₀.calls a.calls b.calls

end Level

section Push

variable {P : E → Prop} {share : S → T} {drivers : List Token} {name : Token → Token}
  {policy : Event → Option Reaction} {a₀ b₀ a b c c' : Course S E}

structure Stirs (event : Option Event) (c c' : Course S E) : Prop where
  registry : c'.now.runner.registry = c.now.runner.registry
  pending : c'.now.runner.pending = c.now.runner.pending ++ event.toList
  heard : History.heard c'.now.history = History.heard c.now.history
  emitted : History.emitted c'.now.history = History.emitted c.now.history ++ event.toList

theorem stirs_push {request : Operation S E} {reply : Option request.Reply} {event : Option Event}
    {s : Session S E} (hperform : c.now.perform request = (reply, s.enqueue? event))
    (honward : c.now.Onward s) : Stirs event c (c.push (.perform request)) := by
  have hnow : (c.push (.perform request)).now = s.enqueue? event := by
    rw [now_push, Session.move, hperform]
  have hrunner := honward.runner
  have hregistry : s.runner.registry = c.now.runner.registry := by
    rw [hrunner]
  have hpending : s.runner.pending = c.now.runner.pending := by
    rw [hrunner]
  constructor
  . rw [hnow, ← hregistry]
    cases event with
    | _ => rfl
  . rw [hnow, ← hpending]
    cases event with
    | none => exact (List.append_nil _).symm
    | some _ => rfl
  . rw [hnow, ← honward.history]
    cases event with
    | none => rfl
    | some _ =>
      rw [Session.enqueue?, Option.elim, Session.history_enqueue]
      rfl
  . rw [hnow, Session.emitted_enqueue?, honward.history]

theorem even_push (hheeds : Engine.Heeds P share)
    (h : Session.Even (Engine.same P share) a.now b.now) (r : Reaction)
    : ∃ event, Session.Even (Engine.same P share) (a.push (.perform r.request)).now
          (b.push (.perform r.request)).now ∧
        Stirs event a (a.push (.perform r.request)) ∧ Stirs event b (b.push (.perform r.request)) ∧
        Grow a.calls b.calls (a.push (.perform r.request)).calls
          (b.push (.perform r.request)).calls ∧
        ∀ e ∈ event, e.kind.isShown = true := by
  obtain ⟨reply, event, s, t, hs, ht, hsonward, htonward, heven, hshown⟩ :=
    h.perform hheeds.bisimilar (fun _ _ _ _ hsame => hsame.2.1) r.isProgress
  refine ⟨event, ?_, stirs_push hs hsonward, stirs_push ht htonward, ?_, hshown⟩
  . rw [now_push, now_push, Session.move, Session.move, hs, ht]
    exact heven
  . refine ⟨a.now.calls (.perform r.request), calls_push a _, ?_⟩
    rw [calls_push, h.abreast.calls hheeds.bisimilar]

def react (c : Course S E) (reaction : Option Reaction) : Course S E :=
  reaction.elim c fun r => c.push (.perform r.request)

theorem even_react (hheeds : Engine.Heeds P share)
    (h : Session.Even (Engine.same P share) a.now b.now) (reaction : Option Reaction)
    : Session.Even (Engine.same P share) (a.react reaction).now (b.react reaction).now ∧
        (a.react reaction).now.runner.registry = a.now.runner.registry ∧
        (b.react reaction).now.runner.registry = b.now.runner.registry ∧
        History.heard (a.react reaction).now.history = History.heard a.now.history ∧
        History.heard (b.react reaction).now.history = History.heard b.now.history ∧
        Grow a.calls b.calls (a.react reaction).calls (b.react reaction).calls := by
  cases reaction with
  | none => exact ⟨h, rfl, rfl, rfl, rfl, .refl⟩
  | some r =>
    obtain ⟨_, heven, ha, hb, hcalls, _⟩ := even_push hheeds h r
    exact ⟨heven, ha.registry, hb.registry, ha.heard, hb.heard, hcalls⟩

theorem Level.push (hheeds : Engine.Heeds P share) (h : Level P share drivers name a₀ b₀ a b)
    (r : Reaction)
    : Level P share drivers name a₀ b₀ (a.push (.perform r.request))
        (b.push (.perform r.request)) := by
  obtain ⟨heven, ha, hb, hheard, hheard', hcalls⟩ := even_react hheeds h.even (some r)
  refine ⟨heven, ha.trans h.left, hb.trans h.right, ?_, h.calls.trans hcalls⟩
  have htranscript : transcript drivers name (a.react (some r)) = transcript drivers name a := by
    rw [transcript, hheard, transcript]
  change Grow _ _ (transcript drivers name (a.react (some r)))
      (History.heard (b.react (some r)).now.history)
  rw [htranscript, hheard']
  exact h.recorded

theorem Level.dispatch (h : Level P share drivers name a₀ b₀ a b) (underway : Bool)
    : Level P share drivers name a₀ b₀ (a.push (.dispatch underway)) b where
  even := by
    refine ⟨⟨h.even.abreast.left, h.even.abreast.right, h.even.abreast.stories⟩, ?_⟩
    change { a.now.runner with dispatching := underway } = _
    rw [h.even.runner]
    rfl
  left := h.left
  right := h.right
  recorded := h.recorded
  calls := by
    have hcalls : (a.push (.dispatch underway)).calls = a.calls :=
      (hears_dispatch underway : Hears share [] a _).calls
    rw [hcalls]
    exact h.calls

-- Settling is draining between the two marks of a delivery, if any event waits; the marks change
-- nothing that is compared.
theorem Level.settles (h : Level P share drivers name a₀ b₀ a b)
    : ∃ (a₁ : Course S E) (finish : Course S E → Course S E),
        Level P share drivers name a₀ b₀ a₁ b ∧
        (∀ a', a.Settles a' ↔ ∃ a₂, a₁.Drains a₂ ∧ a' = finish a₂) ∧
        ∀ a₂ b₂, Level P share drivers name a₀ b₀ a₂ b₂ →
          Level P share drivers name a₀ b₀ (finish a₂) b₂ := by
  cases hpending : a.now.runner.pending with
  | nil =>
    refine ⟨a, id, h, ?_, fun _ _ hlevel => hlevel⟩
    simp [settles_nil hpending, drains_nil hpending]
  | cons event rest =>
    refine ⟨a.push (.dispatch true), (·.push (.dispatch false)), h.dispatch true, ?_, ?_⟩
    . intro a'
      exact settles_cons hpending
    . intro a₂ b₂ hlevel
      exact hlevel.dispatch false

theorem walk_perform (c : Course S E) (request : Operation S E)
    : ∃ reply, outcome (Walk.perform request) c = (some reply, c.push (.perform request)) := by
  obtain ⟨reply, s', hperform, _⟩ := Session.changes_perform (s := c.now) Engine.respects_true
    (Run.staysWithin_true request)
  refine ⟨reply, ?_⟩
  simp [Walk.perform, Walk.look, Walk.move, hperform]

theorem runs_driver (c : Course S E) (event : Event)
    : outcome (Walk.program Walk.perform (driver policy event)) c
        =
      (some (), c.react (policy event)) := by
  unfold driver react
  cases policy event with
  | none => rfl
  | some r =>
    obtain ⟨reply, hperform⟩ := walk_perform c r.request
    simp [Walk.program, hperform]

section Asks

variable {r : Reaction}

theorem asks_iff (hrests : AtRest c)
    : c.Asks r.request c' ↔ (c.push (.perform r.request)).Settles c' := by
  obtain ⟨reply, hperform⟩ := walk_perform c r.request
  have hplain : Run.isPlain (r.request : Operation S E) = true := by
    cases r with
    | _ => rfl
  have hwalk : ∀ bound, outcome (Walk.request bound r.request) c
      = outcome (do Walk.settle bound; return reply) (c.push (.perform r.request)) := by
    intro bound
    rw [request_plain bound hplain, outcome_bind, hperform]
  constructor
  . rintro ⟨bound, reply', _, hdone⟩
    refine ⟨bound, ?_⟩
    rw [hwalk, outcome_bind] at hdone
    generalize outcome (Walk.settle bound) (c.push (.perform r.request)) = settled at hdone ⊢
    obtain ⟨_ | _, c''⟩ := settled
    . cases hdone
    . cases hdone
      rfl
  . rintro ⟨bound, hsettle⟩
    have hdone : outcome (Walk.request bound r.request) c = (some reply, c') := by
      rw [hwalk, outcome_bind, hsettle]
      rfl
    exact ⟨bound, reply, (hrests.walk hdone).1, hdone⟩

theorem atRest_of_asks (hrests : AtRest c) (hasks : c.Asks r.request c') : AtRest c' := by
  obtain ⟨_, _, _, hwalk⟩ := hasks
  exact (hrests.walk hwalk).2

end Asks

abbrev MayGoOn (P : E → Prop) (share : S → T) (c : Course S E) : Prop :=
  Session.Abreast (Engine.same P share) c.now c.now

theorem transcript_driven {event : Event} {front back : List (Token × Handler S E)} {token : Token}
    (htoken : token ∈ drivers) (hfree : ∀ entry ∈ front ++ back, entry.1 ∉ drivers)
    (hheard : History.heard c'.now.history
      = History.heard c.now.history ++ ((event.told front ++ [(token, event)]) ++ event.told back))
    : transcript drivers name c'
        =
      transcript drivers name c ++ event.told
        ((front ++ back).map fun entry => (name entry.1, entry.2)) := by
  rw [List.forall_mem_append] at hfree
  have hdriver : [(token, event)].filter (·.1 ∉ drivers) = [] := by
    simp [htoken]
  unfold transcript
  rw [hheard, List.filter_append, List.filter_append, List.filter_append, Event.filter_told hfree.1,
    hdriver, Event.filter_told hfree.2, List.append_nil, ← Event.told_append, List.map_append,
    Event.told_rename]

-- The driver answers before the handlers behind it have heard the event. These hear it before the
-- next event is taken from the queue, which is why in the end all have heard the same in the same
-- order.
theorem Level.round (hheeds : Engine.Heeds P share)
    (hdrives : Drives share policy drivers name a₀.now.runner.registry b₀.now.runner.registry)
    (h : Level P share drivers name a₀ b₀ a b) {event : Event}
    (hpending : b.now.runner.pending = [event]) (hshown : event.kind.isShown = true)
    : ∃ heard a' b', Hears share heard b b' ∧
        b'.now.runner = { b.now.runner with pending := [], dispatching := false } ∧
        (∀ b'', b.Settles b'' ↔ b'' = b') ∧
        Level P share drivers name a₀ b₀ a' (b'.react (policy event)) ∧
        ∀ bound, outcome (Walk.drain (bound + 1)) a = outcome (Walk.drain bound) a' := by
  obtain ⟨front, token, back, hhandlers, hhandlers', htoken, hfree, hlisten⟩ :=
    hdrives event.kind hshown
  rw [← h.left] at hhandlers
  rw [← h.right] at hhandlers'
  have hpending' : a.now.runner.pending = [event] := by
    rw [h.even.runner]
    exact hpending
  obtain ⟨b', hhears', hrunner', hsettles⟩ := settle_listeners hpending (by
    rw [hhandlers', Listen, List.forall_mem_map]
    exact hlisten)
  obtain ⟨a₁, hhears₁, hrunner₁, hdriver⟩ := drain_among hpending' hhandlers hlisten
  have heven₁ : Session.Even (Engine.same P share) a₁.now b'.now :=
    h.even.same_of hrunner₁ hhears₁.memory hrunner' hhears'.memory
  obtain ⟨heven, hleft, hright, hheard, hheard', hcalls⟩ := even_react hheeds heven₁ (policy event)
  obtain ⟨a', hhears, hrunner, hdrain⟩ := hdriver _ (runs_driver a₁ event) (by
    rw [hleft, hrunner₁])
  refine ⟨_, a', b', hhears', hrunner', hsettles, ?_, hdrain⟩
  constructor
  . refine ⟨heven.abreast.same_of ?_ ?_ hhears.memory rfl rfl rfl, ?_⟩
    . rw [hrunner]
    . rw [hrunner]
    . rw [hrunner]
      exact heven.runner
  . rw [hrunner, hleft, hrunner₁]
    exact h.left
  . rw [hright, hrunner']
    exact h.right
  . refine h.recorded.trans
        ⟨event.told ((front ++ back).map fun entry => (name entry.1, entry.2)), ?_, ?_⟩
    . apply transcript_driven htoken hfree
      rw [hhears.heard, hheard, hhears₁.heard, List.append_assoc]
    . rw [hheard', hhears'.heard, hhandlers']
  . rw [hhears₁.calls, hhears'.calls] at hcalls
    rw [hhears.calls]
    exact h.calls.trans hcalls

end Push

section Drive

variable {P : E → Prop} {share : S → T} {drivers : List Token} {name : Token → Token}
    {policy : Event → Option Reaction} {a₀ b₀ a c : Course S E} {r : Reaction}
    (hheeds : Engine.Heeds P share)
    (hdrives : Drives share policy drivers name a₀.now.runner.registry b₀.now.runner.registry)

include hheeds hdrives

-- Either what has happened comes to an end on both sides, or the driver has already made the
-- request that the host is going to make next.
theorem turn (hrests : AtRest c) (hmore : MayGoOn P share c)
    (h : Level P share drivers name a₀ b₀ a (c.push (.perform r.request)))
    : ∃ c' a', (∀ c'', c.Asks r.request c'' ↔ c'' = c') ∧ AtRest c' ∧
        ((reaction policy c c' = none ∧ Level P share drivers name a₀ b₀ a' c' ∧
            ∀ a'', a.Drains a'' ↔ a'' = a') ∨
          ∃ r', reaction policy c c' = some r' ∧ MayGoOn P share c' ∧
            Level P share drivers name a₀ b₀ a' (c'.push (.perform r'.request)) ∧
            ∀ bound, outcome (Walk.drain (bound + 1)) a = outcome (Walk.drain bound) a') := by
  obtain ⟨event, hpushed, hstirs, _, _, hshown⟩ := even_push hheeds ⟨hmore, rfl⟩ r
  have hpending := hstirs.pending
  rw [hrests.2, List.nil_append] at hpending
  cases event with
  | none =>
    have hasks : ∀ c'', c.Asks r.request c'' ↔ c'' = c.push (.perform r.request) := by
      intro c''
      rw [asks_iff hrests, settles_nil hpending]
    have hpending' : a.now.runner.pending = [] := by
      rw [h.even.runner]
      exact hpending
    refine ⟨_, a, hasks, atRest_of_asks hrests ((hasks _).mpr rfl),
      Or.inl ⟨?_, h, fun _ => drains_nil hpending'⟩⟩
    rw [reaction, Session.emittedSince_eq hstirs.emitted]
    rfl
  | some event =>
    obtain ⟨heard, a', c', hhears, hrunner, hsettles, hlevel, hdrain⟩ :=
      h.round hheeds hdrives hpending (hshown event rfl)
    have hasks : ∀ c'', c.Asks r.request c'' ↔ c'' = c' := by
      intro c''
      rw [asks_iff hrests, hsettles]
    refine ⟨c', a', hasks, atRest_of_asks hrests ((hasks c').mpr rfl), ?_⟩
    have hreaction : reaction policy c c' = policy event := by
      have hsince : c.now.emittedSince c'.now = [event] := by
        apply Session.emittedSince_eq
        rw [hhears.emitted, hstirs.emitted]
        rfl
      rw [reaction, hsince, List.findSome?_singleton]
    rw [hreaction]
    cases hpolicy : policy event with
    | none =>
      rw [hpolicy] at hlevel
      have hpending' : a'.now.runner.pending = [] := by
        rw [hlevel.even.runner]
        exact congrArg (·.pending) hrunner
      refine Or.inl ⟨rfl, hlevel, ?_⟩
      intro a''
      rw [drains_of_drain hdrain, drains_nil hpending']
    | some r' =>
      rw [hpolicy] at hlevel
      refine Or.inr ⟨r', rfl, ?_, hlevel, hdrain⟩
      exact hpushed.abreast.same_of (by rw [hrunner]) (by rw [hrunner]) hhears.memory
        (by rw [hrunner]) (by rw [hrunner]) hhears.memory

theorem steers_of_drain {a' : Course S E} {bound : Nat}
    (hrests : AtRest c) (hmore : MayGoOn P share c)
    (h : Level P share drivers name a₀ b₀ a (c.push (.perform r.request)))
    (hdone : outcome (Walk.drain bound) a = (some (), a'))
    : ∃ c', Steers policy c r c' ∧ AtRest c' ∧ Level P share drivers name a₀ b₀ a' c' := by
  induction bound generalizing a c r with
  | zero => cases hdone
  | succ bound ih =>
    obtain ⟨c', a₁, hasks, hrests', hturn⟩ := turn hheeds hdrives hrests hmore h
    rcases hturn with ⟨hreaction, hlevel, hdrains⟩ | ⟨r', hreaction, hmore', hlevel, hdrain⟩
    . rw [(hdrains a').mp ⟨_, hdone⟩]
      exact ⟨c', .halts ((hasks c').mpr rfl) hreaction, hrests', hlevel⟩
    . rw [hdrain] at hdone
      obtain ⟨c'', hsteers, hrests'', hlevel''⟩ := ih hrests' hmore' hlevel hdone
      exact ⟨c'', .goes ((hasks c').mpr rfl) hreaction hsteers, hrests'', hlevel''⟩

theorem drains_of_steers {c' : Course S E} (hsteers : Steers policy c r c')
    (hrests : AtRest c) (hmore : MayGoOn P share c)
    (h : Level P share drivers name a₀ b₀ a (c.push (.perform r.request)))
    : ∃ a', a.Drains a' ∧ AtRest c' ∧ Level P share drivers name a₀ b₀ a' c' := by
  induction hsteers generalizing a with
  | @halts c c' r hasked hnone =>
    obtain ⟨c₁, a', hasks, hrests', hturn⟩ := turn hheeds hdrives hrests hmore h
    have heq := (hasks c').mp hasked
    rcases hturn with ⟨_, hlevel, hdrains⟩ | ⟨r', hreaction, _⟩
    . rw [heq]
      exact ⟨a', (hdrains a').mpr rfl, hrests', hlevel⟩
    . rw [heq, hreaction] at hnone
      cases hnone
  | @goes c c' c'' r r' hasked hsome _ ih =>
    obtain ⟨c₁, a', hasks, hrests', hturn⟩ := turn hheeds hdrives hrests hmore h
    have heq := (hasks c').mp hasked
    rcases hturn with ⟨hreaction, _⟩ | ⟨r₁, hreaction, hmore', hlevel, hdrain⟩
    . rw [heq, hreaction] at hsome
      cases hsome
    . rw [heq, hreaction] at hsome
      cases hsome
      rw [heq] at ih
      obtain ⟨a'', hdrains, hrests'', hlevel''⟩ := ih hrests' hmore' hlevel
      exact ⟨a'', (drains_of_drain hdrain).mpr hdrains, hrests'', hlevel''⟩

end Drive

section Host

variable {P : E → Prop} {share : S → T} {drivers : List Token} {name : Token → Token}
  {policy : Event → Option Reaction}

theorem Level.concur {a b a' b' : Course S E} (h : Level P share drivers name a b a' b')
    (ha : AtRest a') (hb : AtRest b')
    : Concur drivers name a b a' b' where
  runner := by
    rw [h.even.runner, h.left, ha.dispatching, ← hb.dispatching]
  recorded := h.recorded
  calls := h.calls

-- All that is asked of the stories is not to see what the handlers that listen do to the memory. A
-- story of any kind will do if they leave it alone, by `Engine.heeds_id`. That one of the two ways
-- comes to an end is enough: then so does the other.
theorem drives_as_steered (hheeds : Engine.Heeds P share)
    {a b : Course S E} (ha : AtRest a) (hb : AtRest b)
    (hdrives : Drives share policy drivers name a.now.runner.registry b.now.runner.registry)
    (hactive : b.now.runner.status = .active) (hP : ∀ story ∈ b.now.runner.story, P story)
    (hrunner : a.now.runner = { b.now.runner with registry := a.now.runner.registry })
    (hshare : share b.now.world.memory = share a.now.world.memory) (first : Reaction)
    : (∀ a', a.Asks first.request a' →
          ∃ b', Steers policy b first b' ∧ Concur drivers name a b a' b') ∧
        ∀ b', Steers policy b first b' →
          ∃ a', a.Asks first.request a' ∧ Concur drivers name a b a' b' := by
  obtain ⟨hpresent, hpaused⟩ := Runner.status_eq_active.mp hactive
  obtain ⟨story, hstory⟩ := Option.isSome_iff_exists.mp hpresent
  have hmore : MayGoOn P share b :=
    ⟨hpaused, hpaused, story, story, hstory, hstory, hP story hstory, rfl, rfl⟩
  have heven : Session.Even (Engine.same P share) a.now b.now := by
    refine ⟨hmore.same_of ?_ ?_ hshare.symm rfl rfl rfl, ?_⟩
    . rw [hrunner]
    . rw [hrunner]
    . rw [hrunner]
  have hpushed :=
    (Level.mk heven rfl rfl .refl .refl : Level P share drivers name a b a b).push hheeds first
  obtain ⟨a₁, finish, hready, hsettles, hfinish⟩ := hpushed.settles
  have hasks : ∀ a', a.Asks first.request a' ↔ ∃ a₂, a₁.Drains a₂ ∧ a' = finish a₂ := by
    intro a'
    rw [asks_iff ha, hsettles]
  refine ⟨?_, ?_⟩
  . intro a' hasked
    obtain ⟨a₂, ⟨bound, hdone⟩, rfl⟩ := (hasks a').mp hasked
    obtain ⟨b', hsteers, hb', hlevel⟩ := steers_of_drain hheeds hdrives hb hmore hready hdone
    exact ⟨b', hsteers, (hfinish _ _ hlevel).concur (atRest_of_asks ha hasked) hb'⟩
  . intro b' hsteers
    obtain ⟨a₂, hdrains, hb', hlevel⟩ := drains_of_steers hheeds hdrives hsteers hb hmore hready
    have hasked : a.Asks first.request (finish a₂) := (hasks _).mpr ⟨a₂, hdrains, rfl⟩
    exact ⟨_, hasked, (hfinish _ _ hlevel).concur (atRest_of_asks ha hasked) hb'⟩

end Host

end Course

namespace Script.Story

variable {S : Type} {s : Story S}

theorem play_unbound (hfunctions : s.functions = .empty) (w w' : World S) (steps : List Step)
    : (s.play w' steps).1 = (s.play w steps).1 ∧ (s.play w steps).2.1.functions = .empty ∧
        (s.play w' steps).2.1 = (s.play w steps).2.1 := by
  induction steps generalizing s w w' with
  | nil => exact ⟨rfl, hfunctions, rfl⟩
  | cons step rest ih =>
    cases step with
    | line line => exact ⟨rfl, hfunctions, rfl⟩
    | choices options => exact ⟨rfl, hfunctions, rfl⟩
    | set name value =>
      have hset : (s.assign name value w').1 = (s.assign name value w).1 := rfl
      have hkept : (s.assign name value w).1.next.functions = .empty := hfunctions
      simp only [Story.play, hset]
      exact ih hkept _ _
    | report message severity =>
      have hkept : s.next.functions = .empty := hfunctions
      exact ih hkept _ _
    | call name arguments target =>
      have hnone : s.functions.get? name = none := by
        rw [hfunctions, Table.get?_empty]
      simp only [Story.play, hnone]
      exact ⟨trivial, hfunctions, trivial⟩

-- A story that calls no functions sees nothing of the host's memory.
theorem heeds_unbound
    : Engine.Heeds (fun story : Story S => story.functions = .empty) (fun _ : S => ()) where
  continueOne {story memory memory'} hfunctions _ := by
    obtain ⟨hresult, hkept, hsame⟩ :=
      play_unbound hfunctions ⟨memory, []⟩ ⟨memory', []⟩ story.upcoming
    exact ⟨hresult, hkept, hsame, rfl⟩
  choose {story} hfunctions index := by
    change (story.choose index).2.functions = .empty
    unfold Story.choose
    split
    . exact hfunctions
    . exact hfunctions

end Script.Story

namespace Course

open Script

def recorder : Handler (List Event) (Story (List Event)) := fun event =>
  .perform (.remember (event :: ·)) fun _ => .done

/--
Goes on after each line, and always takes the first choice.
-/
def homeward : Event → Option Reaction
  | .newLine _ => some .advance
  | .newChoices _ => some (.choose 0)
  | _ => none

def fork : Story (List Event) :=
  .new .empty [[.line ⟨"one", []⟩, .choices [("on", 1)]], [.line ⟨"two", []⟩]]

def opening (handlers : List (EventKind × Handler (List Event) (Story (List Event))))
    : Program (List Event) (Story (List Event)) :=
  handlers.foldr (fun entry next => .subscribe entry.1 entry.2 fun _ => next)
    (.perform (.start fork false) fun _ => .done)

/--
Handlers that drive a dialogue among others that record it.
-/
def driven : Course (List Event) (Story (List Event)) :=
  (Session.new {} []).course 2 (opening [(.newLine, recorder), (.newLine, driver homeward),
    (.newLine, recorder), (.newChoices, driver homeward), (.ended, driver homeward),
    (.ended, recorder)])

def undriven : Course (List Event) (Story (List Event)) :=
  (Session.new {} []).course 2
    (opening [(.newLine, recorder), (.newLine, recorder), (.ended, recorder)])

def undrivenName (token : Token) : Token :=
  if token.number = 0 then ⟨0⟩ else if token.number = 2 then ⟨1⟩ else ⟨2⟩

theorem drives_homeward
    : Drives (fun _ => ()) homeward [⟨1⟩, ⟨3⟩, ⟨4⟩] undrivenName driven.now.runner.registry
        undriven.now.runner.registry := by
  have hlisten : ∀ handlers : List (Token × Handler (List Event) (Story (List Event))),
      (∀ entry ∈ handlers, entry.2 = recorder) → Listen (fun _ => ()) handlers := by
    intro handlers hrecorder entry hentry event
    rw [hrecorder entry hentry]
    exact ⟨fun _ => rfl, fun _ => trivial⟩
  intro kind hkind
  cases kind with
  | newLine =>
    exact ⟨[(⟨0⟩, recorder)], ⟨1⟩, [(⟨2⟩, recorder)], rfl, rfl, by simp, by simp,
      hlisten _ (by simp)⟩
  | newChoices => exact ⟨[], ⟨3⟩, [], rfl, rfl, by simp, by simp, hlisten _ (by simp)⟩
  | ended => exact ⟨[], ⟨4⟩, [(⟨5⟩, recorder)], rfl, rfl, by simp, by simp, hlisten _ (by simp)⟩
  | _ => cases hkind

theorem drives_home_as_steered
    : ∃ a' b', driven.Asks Reaction.advance.request a' ∧ Steers homeward undriven .advance b' ∧
        Concur [⟨1⟩, ⟨3⟩, ⟨4⟩] undrivenName driven undriven a' b' := by
  have hdriven : AtRest driven := (Session.staged_course {} [] 2 _).2.2 rfl
  have hundriven : AtRest undriven := (Session.staged_course {} [] 2 _).2.2 rfl
  have hstory : ∀ story ∈ undriven.now.runner.story, story.functions = .empty := by
    have hfork : undriven.now.runner.story = some fork := rfl
    rw [hfork]
    rintro story ⟨⟩
    rfl
  obtain ⟨hsteered, _⟩ :=
    drives_as_steered Story.heeds_unbound hdriven hundriven drives_homeward rfl hstory rfl rfl
      .advance
  have hdone : (outcome (Walk.settle 5) (driven.push (.perform Reaction.advance.request))).1.isSome
      = true := by
    decide +kernel
  have hasks := (asks_iff hdriven).mpr (settles_of_isSome 5 hdone)
  obtain ⟨b', hsteers, hconcur⟩ := hsteered _ hasks
  exact ⟨_, b', hasks, hsteers, hconcur⟩

end Course

end Parley
