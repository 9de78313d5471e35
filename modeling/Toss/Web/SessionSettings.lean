import Toss.Foundation.Run
import Toss.Web.WorkspaceSession

/-!
# Settings of a workspace session

What the hooks of `useWorkspaceSession.ts` send to the session machine, and which settings
a session shows after any order of bootstraps, deltas and setting changes, late ones
included.

* `deliver` — an event as the hooks send it: a failed bootstrap falls back to the cached
  snapshot only while the session still loads;
* `watch` — a session with the settings that it has taken since it started;
* `session_never_goes_back` — the settings shown are those of the highest revision taken.
-/

namespace Toss.Web

open Toss.Foundation Toss.Workspace

/-! ## What is sent -/

/-- `handleBootstrapFailure`, of the snapshot `cachedSnapshots.any`. -/
def handleBootstrapFailure (session : WorkspaceSession) (sessionGeneration : Text)
    (cached : Option CachedProjectSnapshot) (message : Text) : WorkspaceSession :=
  if session.context.scope.generation ≠ sessionGeneration then session
  else
    let fallback := if session.state = .loading then cached else none
    transition session (.bootstrapFailed sessionGeneration fallback message)

/-- An event reaches the machine. A failed bootstrap carries what is cached. -/
def deliver (session : WorkspaceSession) : WorkspaceSessionEvent → WorkspaceSession
  | .bootstrapFailed generation cached message =>
    handleBootstrapFailure session generation cached message
  | event => transition session event

/-! ## Settings taken -/

structure SessionSettings where
  settingsRevision : Int
  latexEngine : LatexEngine
  entryFilePath : Text
deriving DecidableEq, Repr

def WorkspaceSessionContext.settings (context : WorkspaceSessionContext) : SessionSettings :=
  ⟨context.settingsRevision, context.latexEngine, context.entryFilePath⟩

def WorkspaceBootstrap.settings (bootstrap : WorkspaceBootstrap) : SessionSettings :=
  ⟨bootstrap.settingsRevision, bootstrap.latexEngine, bootstrap.entryFilePath⟩

/-- The delta is for other content than the session shows. -/
def WorkspaceSessionContext.isReplacedBy (context : WorkspaceSessionContext)
    (delta : WorkspaceDelta) : Bool :=
  context.contentEpoch.any fun epoch => delta.contentEpoch ≠ epoch

/-- The settings that an event brings to a session which takes it. -/
def takenSettings (session : WorkspaceSession) (event : WorkspaceSessionEvent) :
    List SessionSettings :=
  let context := session.context
  if event.generation = some context.scope.generation then
    match session.state, event with
    | .loading, .bootstrapSucceeded _ bootstrap
    | .available _, .bootstrapSucceeded _ bootstrap => [bootstrap.settings]
    | .loading, .bootstrapFailed _ (some cached) _ =>
      [(projectionFromSeed context.scope cached).settings]
    | .available _, .deltaSucceeded _ delta _ =>
      if context.isReplacedBy delta then [] else [delta.settings]
    | .available _, .settingsSynchronized _ _ latexEngine entryFilePath settingsRevision =>
      [⟨settingsRevision, latexEngine, entryFilePath⟩]
    | _, _ => []
  else []

structure WatchedSession where
  session : WorkspaceSession
  /-- The settings the session has started with and taken since. -/
  taken : List SessionSettings

/-- A session of its own begins with each scope. -/
def WatchedSession.start (session : WorkspaceSession) : WatchedSession :=
  ⟨session, [session.context.settings]⟩

/-- The machine before it is configured. -/
def WatchedSession.initial (scope : WorkspaceSessionScope) : WatchedSession :=
  .start ⟨.loading, createEmptyWorkspaceSession scope⟩

def watch (w : WatchedSession) (event : WorkspaceSessionEvent) : WatchedSession :=
  match event with
  | .sessionStarted scope seed => .start (startSession scope seed)
  | event => ⟨deliver w.session event, w.taken ++ takenSettings w.session event⟩

def WatchStep (w : WatchedSession) (event : WorkspaceSessionEvent) (w' : WatchedSession) : Prop :=
  watch w event = w'

/-! ## One event -/

/-- The session shows the settings with the highest revision it has taken. -/
structure ShowsLatest (w : WatchedSession) : Prop where
  taken : w.session.context.settings ∈ w.taken
  highest : ∀ settings ∈ w.taken,
    settings.settingsRevision ≤ w.session.context.settingsRevision
  loading : w.session.state = .loading →
    w.session.context = createEmptyWorkspaceSession w.session.context.scope

/-- `acceptsSettings`: what is taken replaces what is shown unless it is older. -/
structure Accepts (context context' : WorkspaceSessionContext) (settings : SessionSettings) :
    Prop where
  newer : context.settingsRevision ≤ settings.settingsRevision → context'.settings = settings
  older : settings.settingsRevision < context.settingsRevision →
    context'.settings = context.settings

theorem accepts_applyBootstrap (context : WorkspaceSessionContext)
    (bootstrap : WorkspaceBootstrap) :
    Accepts context (applyBootstrap context bootstrap) bootstrap.settings where
  newer := by
    intro hle
    have hle' : context.settingsRevision ≤ bootstrap.settingsRevision := hle
    simp [WorkspaceSessionContext.settings, WorkspaceBootstrap.settings, applyBootstrap, hle']
  older := by
    intro hlt
    have hnot : ¬context.settingsRevision ≤ bootstrap.settingsRevision := not_le.mpr hlt
    simp [WorkspaceSessionContext.settings, applyBootstrap, hnot]

theorem accepts_applyDelta (context : WorkspaceSessionContext) (delta : WorkspaceDelta)
    (activeDocument : ActiveDocumentProjection) :
    Accepts context (applyDelta context delta activeDocument) delta.settings where
  newer := by
    intro hle
    have hle' : context.settingsRevision ≤ delta.settingsRevision := hle
    simp [WorkspaceSessionContext.settings, WorkspaceBootstrap.settings, applyDelta, hle']
  older := by
    intro hlt
    have hnot : ¬context.settingsRevision ≤ delta.settingsRevision := not_le.mpr hlt
    simp [WorkspaceSessionContext.settings, applyDelta, hnot]

theorem accepts_synchronizeSettings (context : WorkspaceSessionContext) (projectType : ProjectType)
    (latexEngine : LatexEngine) (entryFilePath : Text) (settingsRevision : Int) :
    Accepts context
      (synchronizeSettings context projectType latexEngine entryFilePath settingsRevision)
      ⟨settingsRevision, latexEngine, entryFilePath⟩ where
  newer := by
    intro hle
    have hle' : context.settingsRevision ≤ settingsRevision := hle
    simp [WorkspaceSessionContext.settings, synchronizeSettings, hle']
  older := by
    intro hlt
    have hnot : ¬context.settingsRevision ≤ settingsRevision := not_le.mpr hlt
    simp [synchronizeSettings, hnot]

variable {w : WatchedSession}

variable {session : WorkspaceSession} {event : WorkspaceSessionEvent} {generation : Text}

theorem ShowsLatest.start (hloading : session.state = .loading →
      session.context = createEmptyWorkspaceSession session.context.scope) :
    ShowsLatest (.start session) where
  taken := List.mem_cons_self
  highest := by
    intro settings hsettings
    rw [List.mem_singleton.mp hsettings]
    exact le_refl _
  loading := hloading

/-- Settings are taken, and the session is open from then on. -/
theorem ShowsLatest.accept (h : ShowsLatest w) {state : Availability}
    {context : WorkspaceSessionContext} {settings : SessionSettings}
    (haccepts : Accepts w.session.context context settings) :
    ShowsLatest ⟨⟨.available state, context⟩, w.taken ++ [settings]⟩ := by
  rcases le_or_gt w.session.context.settingsRevision settings.settingsRevision with hle | hlt
  · have hnew := haccepts.newer hle
    have hrevision : context.settingsRevision = settings.settingsRevision :=
      congrArg SessionSettings.settingsRevision hnew
    refine ⟨?_, ?_, nofun⟩
    · show context.settings ∈ _
      rw [hnew]
      exact List.mem_append_right _ List.mem_cons_self
    · intro other hother
      show other.settingsRevision ≤ context.settingsRevision
      rw [hrevision]
      rcases List.mem_append.mp hother with hold | hlast
      · exact le_trans (h.highest other hold) hle
      · rw [List.mem_singleton.mp hlast]
  · have hold := haccepts.older hlt
    have hrevision : context.settingsRevision = w.session.context.settingsRevision :=
      congrArg SessionSettings.settingsRevision hold
    refine ⟨?_, ?_, nofun⟩
    · show context.settings ∈ _
      rw [hold]
      exact List.mem_append_left _ h.taken
    · intro other hother
      show other.settingsRevision ≤ context.settingsRevision
      rw [hrevision]
      rcases List.mem_append.mp hother with hbefore | hlast
      · exact h.highest other hbefore
      · rw [List.mem_singleton.mp hlast]
        exact le_of_lt hlt

/-- Nothing is taken and the settings stay. -/
theorem ShowsLatest.keep (h : ShowsLatest w) (session : WorkspaceSession)
    (hsettings : session.context.settings = w.session.context.settings)
    (hstate : session.state = .loading → session = w.session) :
    ShowsLatest ⟨session, w.taken ++ []⟩ := by
  have hrevision : session.context.settingsRevision = w.session.context.settingsRevision :=
    congrArg SessionSettings.settingsRevision hsettings
  rw [List.append_nil]
  refine ⟨?_, ?_, ?_⟩
  · show session.context.settings ∈ w.taken
    rw [hsettings]
    exact h.taken
  · intro other hother
    show other.settingsRevision ≤ session.context.settingsRevision
    rw [hrevision]
    exact h.highest other hother
  · intro hloading
    have hsame := hstate hloading
    show session.context = _
    rw [hsame]
    exact h.loading (by rw [← hsame]; exact hloading)

theorem takenSettings_of_generation_ne (h : event.generation = some generation)
    (hne : generation ≠ session.context.scope.generation) : takenSettings session event = [] := by
  have hnot : event.generation ≠ some session.context.scope.generation := by
    rw [h]
    intro heq
    exact hne (Option.some.inj heq)
  unfold takenSettings
  rw [if_neg hnot]

theorem deliver_of_generation_ne (h : event.generation = some generation)
    (hne : generation ≠ session.context.scope.generation) : deliver session event = session := by
  cases event with
  | bootstrapFailed sent cached message =>
    cases h
    exact if_pos (Ne.symm hne)
  | _ => exact transition_of_generation_ne h hne

theorem ShowsLatest.stay (h : ShowsLatest w) : ShowsLatest ⟨w.session, w.taken ++ []⟩ :=
  h.keep w.session rfl fun _ => rfl

theorem deliver_delta (context : WorkspaceSessionContext) (substate : Availability)
    (delta : WorkspaceDelta) (activeDocument : ActiveDocumentProjection) :
    deliver ⟨.available substate, context⟩
        (.deltaSucceeded context.scope.generation delta activeDocument)
      = if context.isReplacedBy delta then ⟨.replaced, context⟩
        else ⟨.available .online, applyDelta context delta activeDocument⟩ := by
  simp only [deliver, transition, if_true]
  rfl

theorem settings_updateDocumentContent (context : WorkspaceSessionContext) (path content : Text) :
    (updateDocumentContent context path content).settings = context.settings := by
  unfold updateDocumentContent
  split <;> rfl

/-- The cached snapshot comes with the settings that a loading session shows anyway, but for
its entry file. -/
theorem ShowsLatest.accepts_fallback (h : ShowsLatest w) (hstate : w.session.state = .loading)
    (cached : CachedProjectSnapshot) (message : Text) :
    Accepts w.session.context (applyBootstrapFailure w.session.context (some cached) message)
      (projectionFromSeed w.session.context.scope cached).settings where
  newer := fun _ => rfl
  older := by
    intro hlt
    rw [h.loading hstate] at hlt
    exact absurd hlt (lt_irrefl _)

/-- An event of the running session, for each state it may come in. -/
theorem ShowsLatest.deliver (h : ShowsLatest w)
    (hevent : event.generation = some w.session.context.scope.generation) :
    ShowsLatest ⟨deliver w.session event, w.taken ++ takenSettings w.session event⟩ := by
  rcases w with ⟨⟨state, context⟩, taken⟩
  cases event with
  | sessionStarted scope seed => simp [WorkspaceSessionEvent.generation] at hevent
  | bootstrapSucceeded generation bootstrap =>
    rcases Option.some.inj hevent with rfl
    cases state with
    | loading | available substate =>
      simpa [Web.deliver, transition, takenSettings, hevent] using
        h.accept (accepts_applyBootstrap context bootstrap)
    | unavailable | replaced => simpa [Web.deliver, transition, takenSettings] using h.stay
  | bootstrapFailed generation cached message =>
    rcases Option.some.inj hevent with rfl
    cases state with
    | loading =>
      cases cached with
      | none =>
        simpa [Web.deliver, handleBootstrapFailure, transition, takenSettings] using
          h.keep ⟨.available .offline, applyBootstrapFailure context none message⟩ rfl (by simp)
      | some cached =>
        simpa [Web.deliver, handleBootstrapFailure, transition, takenSettings, hevent] using
          h.accept (h.accepts_fallback rfl cached message)
    | available substate =>
      -- the snapshot is not used any more
      simpa [Web.deliver, handleBootstrapFailure, transition, takenSettings] using
        h.keep ⟨.available .offline, applyBootstrapFailure context none message⟩ rfl (by simp)
    | unavailable | replaced =>
      simpa [Web.deliver, handleBootstrapFailure, transition, takenSettings] using h.stay
  | deltaSucceeded generation delta activeDocument =>
    rcases Option.some.inj hevent with rfl
    cases state with
    | available substate =>
      by_cases hreplaced : context.isReplacedBy delta = true
      · rw [deliver_delta, if_pos hreplaced]
        simpa [takenSettings, hreplaced] using h.keep ⟨.replaced, context⟩ rfl (by simp)
      · rw [deliver_delta, if_neg hreplaced]
        simpa [takenSettings, hreplaced, hevent] using
          h.accept (accepts_applyDelta context delta activeDocument)
    | _ => simpa [Web.deliver, transition, takenSettings] using h.stay
  | deltaFailed generation =>
    rcases Option.some.inj hevent with rfl
    cases state with
    | available substate =>
      simpa [Web.deliver, transition, takenSettings] using
        h.keep ⟨.available .offline, context⟩ rfl (by simp)
    | _ => simpa [Web.deliver, transition, takenSettings] using h.stay
  | activePathSelected generation path =>
    rcases Option.some.inj hevent with rfl
    cases state with
    | available substate =>
      simpa [Web.deliver, transition, takenSettings] using
        h.keep ⟨.available substate, { context with activePath := path }⟩ rfl (by simp)
    | _ => simpa [Web.deliver, transition, takenSettings] using h.stay
  | documentContentUpdated generation path content =>
    rcases Option.some.inj hevent with rfl
    cases state with
    | available substate =>
      simpa [Web.deliver, transition, takenSettings] using
        h.keep ⟨.available substate, updateDocumentContent context path content⟩
          (settings_updateDocumentContent context path content) (by simp)
    | _ => simpa [Web.deliver, transition, takenSettings] using h.stay
  | settingsSynchronized generation projectType latexEngine entryFilePath settingsRevision =>
    rcases Option.some.inj hevent with rfl
    cases state with
    | available substate =>
      simpa [Web.deliver, transition, takenSettings, hevent] using
        h.accept (accepts_synchronizeSettings context projectType latexEngine entryFilePath
          settingsRevision)
    | _ => simpa [Web.deliver, transition, takenSettings] using h.stay

theorem ShowsLatest.watch (h : ShowsLatest w) (event : WorkspaceSessionEvent) :
    ShowsLatest (watch w event) := by
  cases hgeneration : event.generation with
  | none =>
    cases event with
    | sessionStarted scope seed =>
      apply ShowsLatest.start
      intro hloading
      unfold startSession at hloading ⊢
      split
      · rfl
      rename_i havailable
      cases seed with
      | none => rfl
      | some seed => simp [havailable] at hloading
    | _ => cases hgeneration
  | some generation =>
    have hwatch : Web.watch w event
        = ⟨Web.deliver w.session event, w.taken ++ takenSettings w.session event⟩ := by
      cases event with
      | sessionStarted => cases hgeneration
      | _ => rfl
    rw [hwatch]
    by_cases hsame : generation = w.session.context.scope.generation
    · exact h.deliver (by rw [hgeneration, hsame])
    · rw [deliver_of_generation_ne hgeneration hsame, takenSettings_of_generation_ne hgeneration hsame]
      exact h.stay

/-! ## Every order of events -/

theorem run_watch (w : WatchedSession) (events : List WorkspaceSessionEvent) :
    Run WatchStep w events (events.foldl watch w) := by
  induction events generalizing w with
  | nil => exact .nil w
  | cons event events ih => exact .cons rfl (ih (watch w event))

theorem showsLatest_run {scope : WorkspaceSessionScope} {events : List WorkspaceSessionEvent}
    (h : Run WatchStep (.initial scope) events w) : ShowsLatest w := by
  refine h.invariant ?_ (.start fun _ => rfl)
  intro v event v' hv hstep
  rw [← hstep]
  exact hv.watch event

/-- The revision shown is among those that the next event leaves. -/
theorem settingsRevision_le_deliver (h : ShowsLatest w)
    (hevent : event.generation = some generation) :
    w.session.context.settingsRevision ≤ (deliver w.session event).context.settingsRevision := by
  by_cases hsame : generation = w.session.context.scope.generation
  · have hnext := h.deliver (by rw [hevent, hsame])
    exact hnext.highest _ (List.mem_append_left _ h.taken)
  · rw [deliver_of_generation_ne hevent hsame]

theorem context_deliver_delta
    {delta : WorkspaceDelta} (hother : generation ≠ session.context.scope.generation
      ∨ ∃ epoch ∈ session.context.contentEpoch, delta.contentEpoch ≠ epoch)
    (activeDocument : ActiveDocumentProjection) :
    (deliver session (.deltaSucceeded generation delta activeDocument)).context
      = session.context := by
  by_cases hsame : generation = session.context.scope.generation
  · rcases hother with hne | ⟨epoch, hepoch, hdelta⟩
    · exact absurd hsame hne
    · have hreplaced : session.context.isReplacedBy delta = true := by
        rw [WorkspaceSessionContext.isReplacedBy, Option.any_eq_true]
        exact ⟨epoch, hepoch, by simpa using hdelta⟩
      rcases session with ⟨state, context⟩
      cases state with
      | available substate =>
        simp only at hreplaced hsame
        rw [hsame, deliver_delta, if_pos hreplaced]
      | _ => rfl
  · rw [deliver_of_generation_ne rfl hsame]

/-- A failure in a session that has loaded before, or with nothing cached. -/
theorem context_deliver_failure (session : WorkspaceSession) (generation : Text)
    {cached : Option CachedProjectSnapshot} (message : Text)
    (hcached : session.state = .loading → cached = none) :
    ∃ offlineMessage, (deliver session (.bootstrapFailed generation cached message)).context
      = { session.context with offlineMessage := offlineMessage } := by
  by_cases hsame : generation = session.context.scope.generation
  · have hfallback : (if session.state = .loading then cached else none) = none := by
      split
      · next hloading => exact hcached hloading
      · rfl
    rcases session with ⟨state, context⟩
    simp only at hsame hfallback
    simp only [deliver, handleBootstrapFailure, hfallback, hsame]
    cases state with
    | loading | available substate =>
      exact ⟨some message, by simp [transition, applyBootstrapFailure]⟩
    | _ => exact ⟨context.offlineMessage, by simp [transition]⟩
  · rw [deliver_of_generation_ne rfl hsame]
    exact ⟨session.context.offlineMessage, rfl⟩

/-- A session that fails to load at first shows what is cached of its project. -/
theorem context_deliver_fallback (hstate : session.state = .loading)
    (cached : CachedProjectSnapshot) (message : Text) :
    (deliver session (.bootstrapFailed session.context.scope.generation (some cached) message)).context
      = { projectionFromSeed session.context.scope cached with offlineMessage := some message } := by
  rcases session with ⟨state, context⟩
  simp only at hstate
  subst hstate
  simp [deliver, handleBootstrapFailure, transition, applyBootstrapFailure]

/-- After every order of events, with late completions of earlier sessions among them: the
settings shown are those with the highest revision that the session has taken, the revision
does not fall, a delta for other content or another generation changes nothing, and a failed
bootstrap changes the message alone unless the session was still loading and has a snapshot. -/
theorem session_never_goes_back {scope : WorkspaceSessionScope}
    {events : List WorkspaceSessionEvent} (h : Run WatchStep (.initial scope) events w) :
    (w.session.context.settings ∈ w.taken
      ∧ ∀ settings ∈ w.taken,
        settings.settingsRevision ≤ w.session.context.settingsRevision)
    ∧ (∀ event generation, event.generation = some generation →
        w.session.context.settingsRevision
          ≤ (deliver w.session event).context.settingsRevision)
    ∧ (∀ generation delta activeDocument,
        (generation ≠ w.session.context.scope.generation
          ∨ ∃ epoch ∈ w.session.context.contentEpoch, delta.contentEpoch ≠ epoch) →
        (deliver w.session (.deltaSucceeded generation delta activeDocument)).context
          = w.session.context)
    ∧ (∀ generation cached message, (w.session.state = .loading → cached = none) →
        ∃ offlineMessage,
          (deliver w.session (.bootstrapFailed generation cached message)).context
            = { w.session.context with offlineMessage := offlineMessage })
    ∧ ∀ cached message, w.session.state = .loading →
        (deliver w.session
          (.bootstrapFailed w.session.context.scope.generation (some cached) message)).context
          = { projectionFromSeed w.session.context.scope cached with
              offlineMessage := some message } := by
  have hlatest := showsLatest_run h
  refine ⟨⟨hlatest.taken, hlatest.highest⟩, ?_, ?_, ?_, ?_⟩
  · intro event generation hevent
    exact settingsRevision_le_deliver hlatest hevent
  · intro generation delta activeDocument hother
    exact context_deliver_delta hother activeDocument
  · intro generation cached message hcached
    exact context_deliver_failure w.session generation message hcached
  · intro cached message hstate
    exact context_deliver_fallback hstate cached message

section Examples

def draftScope : WorkspaceSessionScope where
  generation := ['a']
  projectId := 1
  cacheIdentity := ['u']
  projectTypeHint := .typst
  latexEngineHint := .xetex
  defaultEntry := ['m', '.', 't', 'y', 'p']
  isUnavailable := false

def draftSnapshot : CachedProjectSnapshot where
  entryFilePath := ['m', '.', 't', 'y', 'p']
  nodes := [⟨['m', '.', 't', 'y', 'p'], .file⟩]
  docs := (∅ : Record Text).insert ['m', '.', 't', 'y', 'p'] ['x']

/-- A newer entry file, then an older one. -/
def draftEvents : List WorkspaceSessionEvent :=
  [.sessionStarted draftScope (some draftSnapshot),
    .settingsSynchronized ['a'] .typst .xetex ['n', '.', 't', 'y', 'p'] 6,
    .settingsSynchronized ['a'] .typst .xetex ['m', '.', 't', 'y', 'p'] 5]

theorem newer_settings_stay :
    let w := draftEvents.foldl watch (.initial draftScope)
    w.session.context.settings = ⟨6, .xetex, ['n', '.', 't', 'y', 'p']⟩
      ∧ w.session.context.settings ∈ w.taken := by
  exact ⟨by decide, (session_never_goes_back (run_watch (.initial draftScope) draftEvents)).1.1⟩

/-- A failed bootstrap is not without effect: the first one shows the cached snapshot. -/
theorem failed_bootstrap_shows_the_cache :
    let w : WatchedSession := .initial draftScope
    let failed := deliver w.session (.bootstrapFailed ['a'] (some draftSnapshot) ['e'])
    w.session.context.documents.lookup ['m', '.', 't', 'y', 'p'] = none
      ∧ failed.context.documents.lookup ['m', '.', 't', 'y', 'p'] = some ['x'] := by
  decide

end Examples

end Toss.Web
