import Parley.Proofs.Restore

/-!
This module contains sessions that differ in the memory of the host and in what was written before.
As long as neither stories nor handlers look at the memory, every request gets the same reply in
both and writes down the same entries.
-/

namespace Parley

/--
Whether what is done to a story does not depend on the memory of the host, and leaves it with a
property.
-/
structure Engine.Unswayed {S E α : Type} (P : E → Prop) (act : World S → α × E × World S)
    : Prop where
  keeps : ∀ world, P (act world).2.1
  same : ∀ memory memory', (act ⟨memory', []⟩).1 = (act ⟨memory, []⟩).1 ∧
    (act ⟨memory', []⟩).2.1 = (act ⟨memory, []⟩).2.1 ∧
    (act ⟨memory', []⟩).2.2.journal = (act ⟨memory, []⟩).2.2.journal

/--
Whether stories with a property never look at the memory of the host, and keep the property as long
as the functions that are bound do not look at it either.
-/
structure Engine.Oblivious {S E : Type} [Engine S E] (P : E → Prop) : Prop where
  continueOne : ∀ story, P story → Unswayed (S := S) P (Engine.continueOne story)
  choose : ∀ story index, P story → P (Engine.choose story index).2
  reset : ∀ story, P story → Unswayed (S := S) P (Engine.reset story)
  rewind : ∀ story, P story → P (Engine.rewind story).2
  setVariable : ∀ story name value, P story →
      Unswayed (S := S) P (Engine.setVariable story name value)
  observe : ∀ story name observer, P story → P (Engine.observe story name observer).2
  bind : ∀ story (function : Function S) lookaheadSafe, function.Stateless → P story →
    P (Engine.bind story function lookaheadSafe).2
  load : ∀ story text, P story → P (Engine.load story text).2

section Stateless

variable {S E : Type} (P : E → Prop)

/--
Whether a request does not look at the memory of the host, and brings in no story and no function
that does.
-/
def Operation.Stateless : Operation S E → Prop
  | .start story _ => P story
  | .bind function _ => function.Stateless
  | .touch act => ∀ story, P story → Engine.Unswayed P fun world => ((), act story world)
  | .recall => False
  | _ => True

def Program.Stateless : Program S E → Prop
  | .done => True
  | .perform request next => request.Stateless P ∧ ∀ reply, (next reply).Stateless
  | .subscribe _ handler next =>
    (∀ event, (handler event).Stateless) ∧ ∀ token, (next token).Stateless

def Registry.Stateless (r : Registry (Handler S E)) : Prop :=
  ∀ kind, ∀ entry ∈ r.handlers kind, ∀ event, (entry.2 event).Stateless P

variable {P} {r : Registry (Handler S E)}

theorem Registry.Stateless.subscribe (h : r.Stateless P)
    (kind : EventKind) {handler : Handler S E} (hhandler : ∀ event, (handler event).Stateless P)
    : (r.subscribe kind handler).2.Stateless P := by
  intro kind' entry hentry
  simp only [Registry.subscribe, Registry.withHandlers] at hentry
  split at hentry
  . rw [List.mem_append, List.mem_singleton] at hentry
    rcases hentry with hentry | rfl
    . exact h kind entry hentry
    . exact hhandler
  . exact h kind' entry hentry

theorem Registry.Stateless.unsubscribe (h : r.Stateless P) (token : Token)
    : (r.unsubscribe token).2.Stateless P := by
  unfold Registry.unsubscribe
  split
  . next kind _ =>
    intro kind' entry hentry
    simp only [Registry.withHandlers] at hentry
    split at hentry
    . exact h kind entry (List.mem_of_mem_eraseP hentry)
    . exact h kind' entry hentry
  . exact h

theorem Registry.stateless_clear : r.clear.Stateless P := by
  intro kind entry hentry
  simp [Registry.clear] at hentry

end Stateless

namespace Session

variable {S E α β : Type} {P : E → Prop} {s s' s'' t t' t'' : Session S E}

/--
Whether two sessions differ in nothing but the memory of the host and what is written, and nobody
who is around looks at either.
-/
structure Twin (P : E → Prop) (s t : Session S E) : Prop where
  runner : t.runner = s.runner
  story : s.StorySatisfies P
  handlers : s.runner.registry.Stateless P

/--
Whether two sessions have become twins and written down the same.
-/
structure Lockstep (P : E → Prop) (s t s' t' : Session S E) : Prop where
  twin : Twin P s' t'
  written : ∃ entries, s'.world.journal = entries ++ s.world.journal ∧
    t'.world.journal = entries ++ t.world.journal

theorem Lockstep.trans (h : Lockstep P s t s' t') (h' : Lockstep P s' t' s'' t'')
    : Lockstep P s t s'' t'' where
  twin := h'.twin
  written := by
    obtain ⟨entries, hs, ht⟩ := h.written
    obtain ⟨entries', hs', ht'⟩ := h'.written
    exact ⟨entries' ++ entries, by rw [hs', hs, List.append_assoc],
      by rw [ht', ht, List.append_assoc]⟩

namespace Twin

theorem lockstep (h : Twin P s t) : Lockstep P s t s t :=
  ⟨h, [], rfl, rfl⟩

theorem record (h : Twin P s t) (entry : Record)
    : Lockstep P s t (s.record entry) (t.record entry) :=
  ⟨⟨h.runner, h.story, h.handlers⟩, [entry], rfl, rfl⟩

theorem report (h : Twin P s t) (error : RunnerError)
    : Lockstep P s t (s.report error) (t.report error) := by
  cases error with
  | _ => exact h.record _

theorem mapRunner (h : Twin P s t) {f : Runner S E → Runner S E}
    (hstory : ∀ story, (f s.runner).story = some story → P story)
    (hregistry : (f s.runner).registry.Stateless P)
    : Lockstep P s t (s.mapRunner f) (t.mapRunner f) := by
  refine ⟨⟨?_, hstory, hregistry⟩, [], rfl, rfl⟩
  exact congrArg f h.runner

theorem mapRunner_same (h : Twin P s t) {f : Runner S E → Runner S E}
    (hstory : (f s.runner).story = s.runner.story)
    (hregistry : (f s.runner).registry = s.runner.registry)
    : Lockstep P s t (s.mapRunner f) (t.mapRunner f) := by
  apply h.mapRunner
  . rw [hstory]
    exact h.story
  . rw [hregistry]
    exact h.handlers

theorem enqueue (h : Twin P s t) (event : Event)
    : Lockstep P s t (s.enqueue event) (t.enqueue event) := by
  have hqueued :=
    h.mapRunner_same (f := fun r => { r with pending := r.pending ++ [event] }) rfl rfl
  exact hqueued.trans (hqueued.twin.record _)

theorem adopt (h : Twin P s t) {story : E} (hstory : P story)
    : Lockstep P s t (s.adopt story) (t.adopt story) := by
  have hadopted :=
    h.mapRunner (f := fun r => { r.clearContent with story := some story, paused := false })
    (by simpa using hstory) h.handlers
  have hrecorded := hadopted.trans (hadopted.twin.record .adopted)
  exact hrecorded.trans (hrecorded.twin.record _)

theorem release (h : Twin P s t) : Lockstep P s t s.release t.release := by
  have hreleased :=
    h.mapRunner (f := fun r => { r.clearContent with story := none, paused := false }) (by simp)
      h.handlers
  have hrecorded := hreleased.trans (hreleased.twin.record (.stopped s.runner.story.isSome))
  have hlogged := hrecorded.trans (hrecorded.twin.record (.log .debug "dialogue stopped"))
  unfold Session.release
  rw [h.runner]
  exact hlogged

theorem tearDown (h : Twin P s t) : Lockstep P s t s.tearDown t.tearDown := by
  have hdown := h.mapRunner (f := (·.tearDown)) (by simp [Runner.tearDown]) Registry.stateless_clear
  exact hdown.trans (hdown.twin.record _)

theorem subscribe (h : Twin P s t) (kind : EventKind) {handler : Handler S E}
    (hhandler : ∀ event, (handler event).Stateless P)
    : (t.subscribe kind handler).1 = (s.subscribe kind handler).1 ∧
        Lockstep P s t (s.subscribe kind handler).2 (t.subscribe kind handler).2 := by
  have hsubscribed := h.mapRunner
    (f := fun r => { r with registry := (s.runner.registry.subscribe kind handler).2 })
    h.story (h.handlers.subscribe kind hhandler)
  unfold Session.subscribe
  rw [h.runner]
  exact ⟨rfl, hsubscribed.trans (hsubscribed.twin.record _)⟩

theorem unsubscribe (h : Twin P s t) (token : Token)
    : (t.unsubscribe token).1 = (s.unsubscribe token).1 ∧
        Lockstep P s t (s.unsubscribe token).2 (t.unsubscribe token).2 := by
  have hstateless := h.handlers.unsubscribe token
  unfold Session.unsubscribe
  rw [h.runner]
  generalize s.runner.registry.unsubscribe token = ended at hstateless
  obtain ⟨_ | _, registry⟩ := ended
  . exact ⟨rfl, h.lockstep⟩
  . have hmapped := h.mapRunner (f := fun r => { r with registry := registry }) h.story hstateless
    exact ⟨rfl, hmapped.trans (hmapped.twin.record _)⟩

/-! What is done to a story is written down in the same way. -/

theorem absorb (h : Twin P s t) {act : World S → α × E × World S} (hact : Engine.Unswayed P act)
    : (act t.world.unwritten).1 = (act s.world.unwritten).1 ∧
        Lockstep P s t (s.absorb (act s.world.unwritten).2.1 (act s.world.unwritten).2.2)
          (t.absorb (act t.world.unwritten).2.1 (act t.world.unwritten).2.2) := by
  obtain ⟨hresult, hstory, hjournal⟩ := hact.same s.world.memory t.world.memory
  refine ⟨hresult, ⟨?_, storySatisfies_of_some rfl (hact.keeps _), h.handlers⟩, _, rfl, ?_⟩
  . simp only [Session.absorb, World.unwritten, h.runner, hstory]
  . simp only [Session.absorb, World.unwritten, hjournal]

theorem putStory (h : Twin P s t) {story : E} (hstory : P story)
    : Lockstep P s t (s.mapRunner ({ · with story := some story }))
        (t.mapRunner ({ · with story := some story })) := by
  apply h.mapRunner
  . simpa using hstory
  . exact h.handlers

variable [Engine S E] (hP : Engine.Oblivious P)

include hP

theorem step (h : Twin P s t) : t.step.1 = s.step.1 ∧ Lockstep P s t s.step.2 t.step.2 := by
  unfold Session.step
  rw [h.runner]
  split
  . exact ⟨rfl, h.lockstep⟩
  . next story hstory =>
    split
    . obtain ⟨hresult, hlockstep⟩ := h.absorb (hP.continueOne story (h.story story hstory))
      generalize Engine.continueOne story s.world.unwritten = played at *
      generalize Engine.continueOne story t.world.unwritten = played' at *
      obtain ⟨result, story', world⟩ := played
      obtain ⟨result', other', world'⟩ := played'
      dsimp only at hresult hlockstep
      rw [hresult]
      cases result with
      | error error => exact ⟨rfl, hlockstep⟩
      | ok line =>
        have hshown :=
          hlockstep.twin.mapRunner_same (f := ({ · with line := some line, choices := [] })) rfl rfl
        exact ⟨rfl, hlockstep.trans hshown⟩
    . split
      . exact ⟨rfl, h.mapRunner_same (f := (·.clearContent)) rfl rfl⟩
      . next choice choices _ =>
        exact ⟨rfl,
          h.mapRunner_same (f := ({ · with line := none, choices := choice :: choices })) rfl rfl⟩

theorem commit (h : Twin P s t) (index : Nat)
    : (t.commit index).1 = (s.commit index).1 ∧
        Lockstep P s t (s.commit index).2 (t.commit index).2 := by
  unfold Session.commit
  rw [h.runner]
  split
  . exact ⟨rfl, h.lockstep⟩
  . next story hstory =>
    dsimp only
    split
    . exact ⟨rfl, h.lockstep⟩
    . split
      . exact ⟨rfl, h.lockstep⟩
      . exact ⟨rfl, h.putStory (hP.choose story index (h.story story hstory))⟩

theorem trySetVariable (h : Twin P s t) (name : String) (value : Value)
    : (t.trySetVariable name value).1 = (s.trySetVariable name value).1 ∧
        Lockstep P s t (s.trySetVariable name value).2 (t.trySetVariable name value).2 := by
  unfold Session.trySetVariable
  rw [h.runner]
  split
  . exact ⟨rfl, h.lockstep⟩
  . next story hstory =>
    split
    . obtain ⟨hresult, hlockstep⟩ :=
        h.absorb (hP.setVariable story name value (h.story story hstory))
      exact ⟨congrArg (·.mapError RunnerError.engine) hresult, hlockstep⟩
    . exact ⟨rfl, h.lockstep⟩

theorem setVariable (h : Twin P s t) (name : String) (value : Value)
    : Lockstep P s t (s.setVariable name value) (t.setVariable name value) := by
  obtain ⟨hresult, hlockstep⟩ := h.trySetVariable hP name value
  unfold Session.setVariable
  rw [h.runner]
  split
  . exact h.lockstep
  . generalize s.trySetVariable name value = ended at *
    generalize t.trySetVariable name value = ended' at *
    obtain ⟨result, s'⟩ := ended
    obtain ⟨result', t'⟩ := ended'
    dsimp only at hresult hlockstep
    rw [hresult]
    cases result with
    | error error => exact hlockstep.trans (hlockstep.twin.report error)
    | ok _ => exact hlockstep

omit hP in
theorem readVariable (h : Twin P s t) (name : String) (kind : Kind)
    : (t.readVariable name kind).1 = (s.readVariable name kind).1 ∧
        Lockstep P s t (s.readVariable name kind).2 (t.readVariable name kind).2 := by
  unfold Session.readVariable Session.tryReadVariable
  rw [h.runner]
  split
  . exact ⟨rfl, h.lockstep⟩
  . exact ⟨rfl, h.report _⟩

theorem observe (h : Twin P s t) (name : String) (observer : Observer)
    : Lockstep P s t (s.observe name observer) (t.observe name observer) := by
  unfold Session.observe
  rw [h.runner]
  split
  . exact h.lockstep
  . next story hstory =>
    split
    . have hobserve := hP.observe story name observer (h.story story hstory)
      split
      . next heq =>
        rw [heq] at hobserve
        exact h.putStory hobserve
      . next heq =>
        rw [heq] at hobserve
        have hput := h.putStory hobserve
        exact hput.trans (hput.twin.record _)
    . exact h.record _

theorem observeAll (h : Twin P s t) (names : List String) (observer : Observer)
    : Lockstep P s t (s.observeAll names observer) (t.observeAll names observer) := by
  unfold Session.observeAll
  induction names generalizing s t with
  | nil => exact h.lockstep
  | cons name names ih =>
    have hobserve := h.observe hP name observer
    exact hobserve.trans (ih hobserve.twin)

theorem bind (h : Twin P s t) {function : Function S} (hfunction : function.Stateless)
    (lookaheadSafe : Bool)
    : Lockstep P s t (s.bind function lookaheadSafe) (t.bind function lookaheadSafe) := by
  unfold Session.bind
  rw [h.runner]
  split
  . exact h.lockstep
  . next story hstory =>
    have hbind := hP.bind story function lookaheadSafe hfunction (h.story story hstory)
    split
    . next heq =>
      rw [heq] at hbind
      exact h.putStory hbind
    . next heq =>
      rw [heq] at hbind
      have hput := h.putStory hbind
      exact hput.trans (hput.twin.record _)

omit hP in
theorem save (h : Twin P s t) : t.save.1 = s.save.1 ∧ Lockstep P s t s.save.2 t.save.2 := by
  unfold Session.save
  rw [h.runner]
  split
  . exact ⟨rfl, h.record _⟩
  . split
    . exact ⟨rfl, h.lockstep⟩
    . exact ⟨rfl, h.record _⟩

theorem load (h : Twin P s t) (text : String)
    : (t.load text).1 = (s.load text).1 ∧ Lockstep P s t (s.load text).2 (t.load text).2 := by
  unfold Session.load
  rw [h.runner]
  split
  . exact ⟨rfl, h.record _⟩
  . next story hstory => exact ⟨rfl, h.putStory (hP.load story text (h.story story hstory))⟩

omit [Engine S E] hP in
theorem touch (h : Twin P s t) {act : E → World S → E × World S}
    (hact : ∀ story, P story → Engine.Unswayed P fun world => ((), act story world))
    : (t.touch act).1 = (s.touch act).1 ∧ Lockstep P s t (s.touch act).2 (t.touch act).2 := by
  unfold Session.touch
  rw [h.runner]
  split
  . exact ⟨rfl, h.lockstep⟩
  . next story hstory => exact ⟨rfl, (h.absorb (hact story (h.story story hstory))).2⟩

end Twin

end Session

namespace Run

open Session

variable {S E α β : Type} {P : E → Prop} {s s' t t' : Session S E}

/--
Whether two computations have the same result, or both none, and write down the same.
-/
structure Synced (P : E → Prop) (m m' : Run S E α) (s t : Session S E) : Prop where
  result : (outcome m' t).1 = (outcome m s).1
  lockstep : Lockstep P s t (outcome m s).2 (outcome m' t).2

section Synced

variable {m m' : Run S E α}

theorem Synced.bind {f f' : α → Run S E β} (h : Synced P m m' s t)
    (hf : ∀ a s' t', Twin P s' t' → Synced P (f a) (f' a) s' t')
    : Synced P (m >>= f) (m' >>= f') s t := by
  obtain ⟨hresult, hlockstep⟩ := h
  generalize hm : outcome m s = ended at hresult hlockstep
  generalize hm' : outcome m' t = ended' at hresult hlockstep
  obtain ⟨result, s'⟩ := ended
  obtain ⟨result', t'⟩ := ended'
  dsimp only at hresult hlockstep
  rw [hresult] at hm'
  have hbind : outcome (m >>= f) s = _ := outcome_bind m f
  have hbind' : outcome (m' >>= f') t = _ := outcome_bind m' f'
  rw [hm] at hbind
  rw [hm'] at hbind'
  cases result with
  | none =>
    constructor
    . rw [hbind, hbind']
    . rw [hbind, hbind']
      exact hlockstep
  | some a =>
    have hnext := hf a s' t' hlockstep.twin
    constructor
    . rw [hbind, hbind']
      exact hnext.result
    . rw [hbind, hbind']
      exact hlockstep.trans hnext.lockstep

theorem synced_pure (h : Twin P s t) (a : α) : Synced P (pure a) (pure a) s t :=
  ⟨rfl, h.lockstep⟩

theorem synced_get {f f' : Session S E → Run S E α} (h : Synced P (f s) (f' t) s t)
    : Synced P (get >>= f) (get >>= f') s t := by
  constructor
  . exact h.result
  . exact h.lockstep

theorem synced_set (h : Lockstep P s t s' t') : Synced P (set s') (set t') s t :=
  ⟨rfl, h⟩

theorem synced_modify {f : Session S E → Session S E} (h : Lockstep P s t (f s) (f t))
    : Synced P (modify f) (modify f) s t :=
  ⟨rfl, h⟩

theorem synced_modifyGet {f : Session S E → α × Session S E}
    (h : (f t).1 = (f s).1 ∧ Lockstep P s t (f s).2 (f t).2)
    : Synced P (modifyGet f) (modifyGet f) s t :=
  ⟨congrArg some h.1, h.2⟩

theorem synced_report (h : Twin P s t) (error : RunnerError)
    : Synced P (report error) (report error) s t :=
  synced_modify (h.report error)

theorem synced_reporting (h : Twin P s t) (result : Except RunnerError Unit)
    : Synced P (reporting result) (reporting result) s t := by
  cases result with
  | error error => exact synced_report h error
  | ok _ => exact synced_pure h ()

end Synced

section Operations

variable [Engine S E] (hP : Engine.Oblivious P) {emit : Event → Run S E Unit}
  (hemit : ∀ event s t, Twin P s t → Synced P (emit event) (emit event) s t)

include hP hemit

theorem synced_tryAdvance (h : Twin P s t) : Synced P (tryAdvance emit) (tryAdvance emit) s t := by
  unfold tryAdvance
  apply synced_get
  rw [h.runner]
  split
  . exact synced_pure h _
  . obtain ⟨hresult, hlockstep⟩ := h.step hP
    generalize s.step = ended at *
    generalize t.step = ended' at *
    obtain ⟨result, s'⟩ := ended
    obtain ⟨result', t'⟩ := ended'
    dsimp only at hresult hlockstep
    rw [hresult]
    cases result with
    | error error => exact (synced_set hlockstep).bind fun _ _ _ h => synced_pure h _
    | ok event =>
      apply (synced_set hlockstep).bind
      intro _ _ _ h
      exact (hemit event _ _ h).bind fun _ _ _ h => synced_pure h _

theorem synced_advance (h : Twin P s t) : Synced P (advance emit) (advance emit) s t := by
  exact (synced_tryAdvance hP hemit h).bind fun result _ _ h => synced_reporting h result

theorem synced_tryChoose (h : Twin P s t) (index : Nat) (autoAdvance : Bool)
    : Synced P (tryChoose emit index autoAdvance) (tryChoose emit index autoAdvance) s t := by
  unfold tryChoose
  apply synced_get
  rw [h.runner]
  split
  . exact synced_pure h _
  . obtain ⟨hresult, hlockstep⟩ := h.commit hP index
    generalize s.commit index = ended at *
    generalize t.commit index = ended' at *
    obtain ⟨result, s'⟩ := ended
    obtain ⟨result', t'⟩ := ended'
    dsimp only at hresult hlockstep
    rw [hresult]
    cases result with
    | error error => exact (synced_set hlockstep).bind fun _ _ _ h => synced_pure h _
    | ok _ =>
      apply (synced_set hlockstep).bind
      intro _ _ _ h
      cases autoAdvance with
      | true => exact synced_tryAdvance hP hemit h
      | false => exact synced_pure h _

theorem synced_start (h : Twin P s t) {story : E} (hstory : P story) (autoAdvance : Bool)
    : Synced P (start emit story autoAdvance) (start emit story autoAdvance) s t := by
  unfold start
  apply synced_get
  rw [h.runner]
  split
  . exact synced_report h _
  . apply (synced_set (h.adopt hstory)).bind
    intro _ _ _ h
    apply (hemit .started _ _ h).bind
    intro _ _ _ h
    cases autoAdvance with
    | true => exact synced_advance hP hemit h
    | false => exact synced_pure h ()

theorem synced_reset (h : Twin P s t) : Synced P (reset emit) (reset emit) s t := by
  unfold reset
  apply synced_get
  rw [h.runner]
  split
  . exact synced_pure h ()
  . next story hstory =>
    obtain ⟨hresult, hlockstep⟩ := h.absorb (hP.reset story (h.story story hstory))
    generalize Engine.reset story s.world.unwritten = ended at *
    generalize Engine.reset story t.world.unwritten = ended' at *
    obtain ⟨result, story', world⟩ := ended
    obtain ⟨result', other', world'⟩ := ended'
    dsimp only at hresult hlockstep
    rw [hresult]
    cases result with
    | error error => exact (synced_set hlockstep).bind fun _ _ _ h => synced_report h _
    | ok _ =>
      have hcleared := hlockstep.trans (hlockstep.twin.mapRunner_same
        (f := ({ ·.clearContent with paused := false })) rfl rfl)
      have hlogged := hcleared.trans (hcleared.twin.record (.log .debug "dialogue restarted"))
      exact (synced_set hlogged).bind fun _ _ _ h => hemit .restarted _ _ h

omit hemit in
theorem synced_rewind (h : Twin P s t) : Synced P (rewind : Run S E Unit) rewind s t := by
  unfold rewind
  apply synced_get
  rw [h.runner]
  split
  . exact synced_pure h ()
  . next story hstory =>
    have hrewound := h.mapRunner
      (f := fun r => { r.clearContent with story := some (Engine.rewind story).2 })
      (by simpa using hP.rewind story (h.story story hstory)) h.handlers
    exact (synced_set hrewound).bind fun _ _ _ h => synced_reporting h _

omit hP [Engine S E] in
theorem synced_pause (h : Twin P s t) : Synced P (pause emit) (pause emit) s t := by
  unfold pause
  apply synced_get
  rw [h.runner]
  split
  . have hpaused := h.mapRunner_same (f := ({ · with paused := true })) rfl rfl
    exact (synced_set hpaused).bind fun _ _ _ h => hemit .paused _ _ h
  . exact synced_pure h ()

omit hP [Engine S E] in
theorem synced_resume (h : Twin P s t) : Synced P (resume emit) (resume emit) s t := by
  unfold resume
  apply synced_get
  rw [h.runner]
  split
  . have hresumed := h.mapRunner_same (f := ({ · with paused := false })) rfl rfl
    exact (synced_set hresumed).bind fun _ _ _ h => hemit .resumed _ _ h
  . exact synced_pure h ()

omit hP [Engine S E] in
theorem synced_stop (h : Twin P s t) : Synced P (stop emit) (stop emit) s t := by
  unfold stop
  apply synced_get
  rw [h.runner]
  split
  . apply (synced_modify (h.record .stopping)).bind
    intro _ _ _ h
    apply (hemit .stopped _ _ h).bind
    intro _ _ _ h
    exact synced_modify h.release
  . exact synced_pure h ()

theorem synced_operation (h : Twin P s t) {request : Operation S E} (hrequest : request.Stateless P)
    : Synced P (operation emit request) (operation emit request) s t := by
  cases request with
  | advance => exact synced_advance hP hemit h
  | tryAdvance => exact synced_tryAdvance hP hemit h
  | choose index autoAdvance =>
    exact (synced_tryChoose hP hemit h index autoAdvance).bind fun result _ _ h =>
        synced_reporting h result
  | tryChoose index autoAdvance => exact synced_tryChoose hP hemit h index autoAdvance
  | start story autoAdvance => exact synced_start hP hemit h hrequest autoAdvance
  | reset => exact synced_reset hP hemit h
  | rewind => exact synced_rewind hP h
  | pause => exact synced_pause hemit h
  | resume => exact synced_resume hemit h
  | stop => exact synced_stop hemit h
  | tearDown => exact synced_modify h.tearDown
  | unsubscribe token => exact synced_modifyGet (h.unsubscribe token)
  | setVariable name value => exact synced_modify (h.setVariable hP name value)
  | trySetVariable name value => exact synced_modifyGet (h.trySetVariable hP name value)
  | readVariable name kind => exact synced_modifyGet (h.readVariable name kind)
  | tryReadVariable name kind =>
    apply synced_get
    unfold tryReadVariable
    rw [h.runner]
    exact synced_pure h _
  | variableValue name =>
    apply synced_get
    unfold variableValue
    rw [h.runner]
    exact synced_pure h _
  | observe name observer => exact synced_modify (h.observe hP name observer)
  | observeAll names observer => exact synced_modify (h.observeAll hP names observer)
  | bind function lookaheadSafe => exact synced_modify (h.bind hP hrequest lookaheadSafe)
  | save => exact synced_modifyGet h.save
  | load text => exact synced_modifyGet (h.load hP text)
  | look =>
    apply synced_get
    rw [h.runner]
    exact synced_pure h _
  | touch act => exact synced_modifyGet (h.touch hrequest)
  | «recall» => exact absurd hrequest id
  | remember change => exact synced_modify ⟨⟨h.runner, h.story, h.handlers⟩, [], rfl, rfl⟩
  | note text => exact synced_modify (h.record _)
  | log level message => exact synced_modify (h.record _)

theorem synced_program (h : Twin P s t) {p : Program S E} (hp : p.Stateless P)
    : Synced P (program emit p) (program emit p) s t := by
  induction p generalizing s t with
  | done => exact synced_pure h ()
  | perform request next ih =>
    exact (synced_operation hP hemit h hp.1).bind fun reply _ _ h => ih reply h (hp.2 reply)
  | subscribe kind handler next _ ih =>
    exact (synced_modifyGet (h.subscribe kind hp.1)).bind fun token _ _ h => ih token h (hp.2 token)

theorem synced_deliver (h : Twin P s t) (event : Event) {handlers : List (Token × Handler S E)}
    (hhandlers : ∀ entry ∈ handlers, ∀ event, (entry.2 event).Stateless P)
    : Synced P (deliver (program emit) event handlers)
        (deliver (program emit) event handlers) s t := by
  induction handlers generalizing s t with
  | nil => exact synced_pure h ()
  | cons entry rest ih =>
    obtain ⟨token, handler⟩ := entry
    rw [List.forall_mem_cons] at hhandlers
    unfold deliver
    have hentered : Lockstep P s t (s.record (.entered token event s.runner.status))
        (t.record (.entered token event t.runner.status)) := by
      rw [h.runner]
      exact h.record _
    apply (synced_modify hentered).bind
    intro _ _ _ h
    apply (synced_program hP hemit h (hhandlers.1 event)).bind
    intro _ _ _ h
    apply (synced_modify (h.record (.left token))).bind
    intro _ s' t' h
    apply synced_get
    rw [h.runner]
    split
    . exact synced_pure h ()
    . exact ih h hhandlers.2

end Operations

theorem synced_emitWith {drain : Run S E Unit}
    (hdrain : ∀ s t, Twin P s t → Synced P drain drain s t) (event : Event) (s t : Session S E)
    (h : Twin P s t)
    : Synced P (emitWith drain event) (emitWith drain event) s t := by
  unfold emitWith
  apply (synced_modify (h.enqueue event)).bind
  intro _ _ _ h
  apply synced_get
  rw [h.runner]
  split
  . exact synced_pure h ()
  . apply (synced_modify (h.mapRunner_same rfl rfl)).bind
    intro _ _ _ h
    apply (hdrain _ _ h).bind
    intro _ _ _ h
    exact synced_modify (h.mapRunner_same rfl rfl)

variable [Engine S E] (hP : Engine.Oblivious P)

include hP

theorem synced_drain (bound : Nat) (s t : Session S E) (h : Twin P s t)
    : Synced P (drain bound : Run S E Unit) (drain bound) s t := by
  induction bound generalizing s t with
  | zero => exact ⟨rfl, h.lockstep⟩
  | succ bound ih =>
    unfold drain
    apply synced_get
    rw [h.runner]
    split
    . exact synced_pure h ()
    . next event rest _ =>
      have htaken := h.mapRunner_same (f := ({ · with pending := rest })) rfl rfl
      apply (synced_set (htaken.trans (htaken.twin.record (.delivering event)))).bind
      intro _ _ _ h'
      apply (synced_deliver hP (synced_emitWith ih) h' event (h.handlers event.kind)).bind
      intro _ _ _ h
      exact ih _ _ h

end Run

namespace Session

variable {S E : Type} [Engine S E] {P : E → Prop} {s t : Session S E}

theorem Twin.request (hP : Engine.Oblivious P) (h : Twin P s t) (bound : Nat)
    {request : Operation S E} (hrequest : request.Stateless P)
    : (t.request bound request).1 = (s.request bound request).1 ∧
        Lockstep P s t (s.request bound request).2 (t.request bound request).2 := by
  have hsynced :=
    Run.synced_operation hP (Run.synced_emitWith (Run.synced_drain hP bound)) h hrequest
  exact ⟨hsynced.result, hsynced.lockstep⟩

def writtenSince (s s' : Session S E) : List Record :=
  s'.world.journal.take (s'.world.journal.length - s.world.journal.length)

/--
The replies to requests from outside of any handler, each with what was written down meanwhile. It
ends with the first request that exceeds its bound.
-/
def account (s : Session S E) (bound : Nat)
    : List (Operation S E) → List (((request : Operation S E) × Option request.Reply) × List Record)
  | [] => []
  | request :: requests =>
    let (reply, s') := s.request bound request
    (⟨request, reply⟩, s.writtenSince s') :: if reply.isSome then s'.account bound requests else []

omit [Engine S E] in
theorem writtenSince_eq {s' : Session S E} {entries : List Record}
    (h : s'.world.journal = entries ++ s.world.journal) : s.writtenSince s' = entries := by
  simp [writtenSince, h]

theorem Twin.account (hP : Engine.Oblivious P) (h : Twin P s t) (bound : Nat)
    {requests : List (Operation S E)} (hrequests : ∀ request ∈ requests, request.Stateless P)
    : t.account bound requests = s.account bound requests := by
  induction requests generalizing s t with
  | nil => rfl
  | cons request requests ih =>
    rw [List.forall_mem_cons] at hrequests
    obtain ⟨hreply, hlockstep⟩ := h.request hP bound hrequests.1
    obtain ⟨entries, hs, ht⟩ := hlockstep.written
    simp only [Session.account]
    rw [hreply, writtenSince_eq hs, writtenSince_eq ht, ih hlockstep.twin hrequests.2]

end Session

end Parley
