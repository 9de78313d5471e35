import Toss.BrowserBackend.BrowserHistory
import Toss.BrowserBackend.CollaborationTabs

/-!
# What the tabs of a browser keep

As long as the steps meet `TabGuard`, a session on the stored revision of its document shows no
more than what is stored and what it has not persisted, and no less than what is stored but for
the updates on their way to it.

* `Behind` — a configuration that was shown, and the document that is stored;
* `Held` — a session against the document of its revision;
* `TabsInv` — the invariant, `TabsInv.step` — every step keeps it;
* `tabs_converge` — the tabs over their runs.
-/

namespace Toss.BrowserBackend

open Toss.Foundation Toss.Workspace

variable {Y : Type}

/-! ## The invariant -/

/-- The configuration was shown: the document can only have been reset since. -/
structure Behind (db : BrowserDatabase Y) (config : DocumentConfig) : Prop where
  drawn : config.documentId < db.nextId
  stored : ∀ document ∈ db.documents, document.id = config.documentId →
    document.projectId = config.projectId
      ∧ config.collaborationRevision ≤ document.collaborationRevision

/-- An update that is stored, and not yet told to the channel. -/
def Announcing (sessions : Uuid → Option (DocumentSession Y)) (config : DocumentConfig)
    (update : Y) : Prop :=
  ∃ sender session document, sessions sender = some session ∧ session.config = config
    ∧ session.merged = some (update, document)

section Kept

variable [SemilatticeSup Y]

/-- A session against the document that is stored under its revision. -/
structure Held (sessions : Uuid → Option (DocumentSession Y)) (session : DocumentSession Y)
    (stored : Y) : Prop where
  received : ∀ message ∈ session.inbox, message ≤ stored
  merged : ∀ update document, session.merged = some (update, document) →
    update ≤ stored ∧ document.yUpdate ≤ stored
  /-- It shows what is stored and what waits, and nothing else. -/
  below : session.closed = false → ∀ bound, stored ≤ bound →
    (∀ update ∈ session.waiting, update ≤ bound) → session.view ≤ bound
  /-- What is stored is shown, or on its way. -/
  above : session.closed = false → session.answered = true → ∀ bound, session.view ≤ bound →
    (∀ message ∈ session.inbox, message ≤ bound) →
    (∀ update, Announcing sessions session.config update → update ≤ bound) → stored ≤ bound

structure SessionKept (platform : BrowserPlatform Y) (db : BrowserDatabase Y)
    (sessions : Uuid → Option (DocumentSession Y)) (session : DocumentSession Y) : Prop where
  behind : Behind db session.config
  current : session.waiting ≠ [] ∨ session.merged.isSome = true → Current db session.config
  waits : ∀ update ∈ session.waiting, update ≤ session.ydoc
  tells : ∀ update document, session.merged = some (update, document) →
    update ≤ session.ydoc ∧ document.content = platform.textOf document.yUpdate
  held : ∀ document ∈ db.documents, document.id = session.config.documentId →
    document.collaborationRevision = session.config.collaborationRevision →
    Held sessions session document.yUpdate

structure ReportKept (platform : BrowserPlatform Y) (db : BrowserDatabase Y)
    (report : SavedReport Y) : Prop where
  behind : Behind db report.config
  contained : ∀ document ∈ db.documents, document.id = report.config.documentId →
    document.collaborationRevision = report.config.collaborationRevision →
    report.state ≤ document.yUpdate
  content : report.content = platform.textOf report.state
  current : ∀ revision ∈ report.storedRevision, revision = report.config.collaborationRevision

structure TabsInv (platform : BrowserPlatform Y) (world : Tabs Y) : Prop where
  identified : Identified platform world.db
  shown : ∀ config ∈ world.shown, Behind world.db config
  sessions : ∀ sender session, world.sessions sender = some session →
    SessionKept platform world.db world.sessions session
  merges : ∀ merge ∈ world.merges, merge.storedRevision = merge.config.collaborationRevision
  reports : ∀ report ∈ world.reports, ReportKept platform world.db report

variable {platform : BrowserPlatform Y} {db db' : BrowserDatabase Y}

variable {session : DocumentSession Y} {config : DocumentConfig} {update : Y}
  {record : StoredBrowserDocument Y}

theorem Held.mono {sessions sessions' : Uuid → Option (DocumentSession Y)}
    {stored : Y} (h : Held sessions session stored)
    (hannouncing : ∀ update, Announcing sessions session.config update →
      Announcing sessions' session.config update) : Held sessions' session stored :=
  ⟨h.received, h.merged, h.below, fun hopen hanswered bound hview hinbox htold =>
    h.above hopen hanswered bound hview hinbox fun update hupdate =>
      htold update (hannouncing update hupdate)⟩

theorem tabsInv_empty [OrderBot Y] : TabsInv platform (Tabs.empty : Tabs Y) := by
  refine ⟨⟨?_, ?_, ?_⟩, ?_, ?_, ?_, ?_⟩
  · exact fun document hdocument => absurd hdocument List.not_mem_nil
  · exact fun document hdocument => absurd hdocument List.not_mem_nil
  · exact fun document hdocument => absurd hdocument List.not_mem_nil
  · exact fun config hconfig => absurd hconfig List.not_mem_nil
  · intro sender session hsession
    cases hsession
  · exact fun merge hmerge => absurd hmerge List.not_mem_nil
  · exact fun report hreport => absurd hreport List.not_mem_nil

/-! ## The store moves on -/

/-- Documents are replaced by later states of theirs. -/
structure Progress (db db' : BrowserDatabase Y) : Prop where
  nextId : db.nextId ≤ db'.nextId
  documents : ∀ document' ∈ db'.documents, document'.id < db.nextId →
    ∃ document ∈ db.documents, document'.id = document.id
      ∧ document'.projectId = document.projectId
      ∧ document.collaborationRevision ≤ document'.collaborationRevision
      ∧ (document.collaborationRevision = document'.collaborationRevision →
        document.yUpdate ≤ document'.yUpdate)

theorem Behind.progress (h : Behind db config) (hprogress : Progress db db') :
    Behind db' config := by
  refine ⟨h.drawn.trans_le hprogress.nextId, fun document' hdocument' hid => ?_⟩
  rcases hprogress.documents document' hdocument' (hid ▸ h.drawn) with
    ⟨document, hdocument, hsame, hproject, hle, -⟩
  rcases h.stored document hdocument (hsame.symm.trans hid) with ⟨hmine, hbehind⟩
  exact ⟨hproject.trans hmine, hbehind.trans hle⟩

theorem ReportKept.progress {report : SavedReport Y} (h : ReportKept platform db report)
    (hprogress : Progress db db') : ReportKept platform db' report := by
  refine ⟨h.behind.progress hprogress, fun document' hdocument' hid hrevision => ?_, h.content,
    h.current⟩
  rcases hprogress.documents document' hdocument' (hid ▸ h.behind.drawn) with
    ⟨document, hdocument, hsame, -, hle, hgrows⟩
  have hold := hsame.symm.trans hid
  have hbehind := (h.behind.stored document hdocument hold).2
  have heq : document.collaborationRevision = report.config.collaborationRevision := by omega
  exact (h.contained document hdocument hold heq).trans (hgrows (heq.trans hrevision.symm))

theorem progress_of_written {resets : StoredBrowserDocument Y → Prop}
    (h : Written platform db resets db') : Progress db db' := by
  refine ⟨h.nextId, fun document' hdocument' hdrawn => ?_⟩
  rcases h.descends document' hdocument' with
    ⟨document, hdocument, hsame⟩ | ⟨document, hdocument, -, hid, hproject, hrevision⟩ | ⟨hnew⟩
  · exact ⟨document, hdocument, hsame.id, hsame.projectId, hsame.collaborationRevision.ge,
      fun _ => hsame.yUpdate.ge⟩
  · refine ⟨document, hdocument, hid, hproject, ?_, fun hsame => ?_⟩
    · omega
    · omega
  · exact absurd hdrawn hnew.not_gt

/-! ## Sessions that change -/

variable {world : Tabs Y}

omit [SemilatticeSup Y] in
@[simp] theorem Tabs.put_self (world : Tabs Y) (sender : Uuid) (session : DocumentSession Y) :
    (world.put sender session).sessions sender = some session :=
  Function.update_self ..

omit [SemilatticeSup Y] in
theorem Tabs.put_of_ne (world : Tabs Y) {sender other : Uuid} (hne : other ≠ sender)
    (session : DocumentSession Y) :
    (world.put sender session).sessions other = world.sessions other :=
  Function.update_of_ne hne ..

omit [SemilatticeSup Y] in
/-- Nothing on its way to the channel is lost when a session is put for one that tells the same. -/
theorem announcing_put {sender : Uuid} {session' : DocumentSession Y}
    (hold : ∀ session, world.sessions sender = some session →
      session'.config = session.config ∧ session'.merged = session.merged)
    (h : Announcing world.sessions config update) :
    Announcing (world.put sender session').sessions config update := by
  rcases h with ⟨other, session, document, hother, hconfig, hmerged⟩
  by_cases hsame : other = sender
  · subst hsame
    rcases hold session hother with ⟨hconfig', hmerged'⟩
    exact ⟨other, session', document, world.put_self .., hconfig'.trans hconfig,
      hmerged'.trans hmerged⟩
  · exact ⟨other, session, document, (world.put_of_ne hsame _).trans hother, hconfig, hmerged⟩

/-- A session is put that keeps what it must. -/
theorem TabsInv.put (h : TabsInv platform world) {sender : Uuid} {session' : DocumentSession Y}
    (hold : ∀ session, world.sessions sender = some session →
      session'.config = session.config ∧ session'.merged = session.merged)
    (hkept : SessionKept platform world.db (world.put sender session').sessions session') :
    TabsInv platform (world.put sender session') := by
  refine ⟨h.identified, h.shown, fun other session hother => ?_, h.merges, h.reports⟩
  by_cases hsame : other = sender
  · subst hsame
    rw [Tabs.put_self, Option.some.injEq] at hother
    rw [← hother]
    exact hkept
  · rw [Tabs.put_of_ne _ hsame] at hother
    have hsession := h.sessions other session hother
    exact ⟨hsession.behind, hsession.current, hsession.waits, hsession.tells,
      fun document hdocument hid hrevision => (hsession.held document hdocument hid hrevision).mono
        fun _ => announcing_put hold⟩

/-- A session that changes in what it shows and receives. -/
theorem TabsInv.change (h : TabsInv platform world) {sender : Uuid}
    {session session' : DocumentSession Y} (hsession : world.sessions sender = some session)
    (hconfig : session'.config = session.config) (hmerged : session'.merged = session.merged)
    (hcurrent : session'.waiting ≠ [] → Current world.db session.config)
    (hwaits : ∀ update ∈ session'.waiting, update ≤ session'.ydoc)
    (hydoc : session.ydoc ≤ session'.ydoc)
    (hheld : ∀ document ∈ world.db.documents, document.id = session.config.documentId →
      document.collaborationRevision = session.config.collaborationRevision →
      Held world.sessions session document.yUpdate →
      Held world.sessions session' document.yUpdate) :
    TabsInv platform (world.put sender session') := by
  have hkept := h.sessions sender session hsession
  have hold : ∀ before, world.sessions sender = some before →
      session'.config = before.config ∧ session'.merged = before.merged := by
    intro before hbefore
    rw [hsession, Option.some.injEq] at hbefore
    rw [← hbefore]
    exact ⟨hconfig, hmerged⟩
  refine h.put hold ⟨?_, ?_, hwaits, ?_, ?_⟩
  · rw [hconfig]
    exact hkept.behind
  · rintro (hwaiting | htelling)
    · rw [hconfig]
      exact hcurrent hwaiting
    · rw [hconfig]
      rw [hmerged] at htelling
      exact hkept.current (.inr htelling)
  · intro update document htells
    rw [hmerged] at htells
    rcases hkept.tells update document htells with ⟨hshown, hcontent⟩
    exact ⟨hshown.trans hydoc, hcontent⟩
  · intro document hdocument hid hrevision
    rw [hconfig] at hid hrevision
    exact (hheld document hdocument hid hrevision (hkept.held document hdocument hid hrevision)).mono
      fun _ => announcing_put hold

theorem view_le {bound : Y} :
    session.view ≤ bound ↔ session.ydoc ≤ bound
      ∧ ∀ update, session.bootstrap = .answered update → update ≤ bound := by
  unfold DocumentSession.view
  cases session.bootstrap with
  | answered update => simp
  | _ => simp

/-- A session changes in nothing that is shown or sent; it may close. -/
theorem TabsInv.aside (h : TabsInv platform world) {sender : Uuid} {session session' : DocumentSession Y}
    (hsession : world.sessions sender = some session) (hconfig : session'.config = session.config)
    (hmerged : session'.merged = session.merged) (hwaiting : session'.waiting = session.waiting)
    (hydoc : session'.ydoc = session.ydoc) (hbootstrap : session'.bootstrap = session.bootstrap)
    (hinbox : session'.inbox = session.inbox)
    (hclosed : session'.closed = false → session.closed = false) :
    TabsInv platform (world.put sender session') := by
  have hkept := h.sessions sender session hsession
  have hview : session'.view = session.view := by
    rw [DocumentSession.view, DocumentSession.view, hbootstrap, hydoc]
  have hanswered : session'.answered = session.answered := by
    rw [DocumentSession.answered, DocumentSession.answered, hbootstrap]
  refine h.change hsession hconfig hmerged ?_ ?_ hydoc.ge ?_
  · rw [hwaiting]
    exact fun hne => hkept.current (.inl hne)
  · rw [hwaiting, hydoc]
    exact hkept.waits
  · intro document _ _ _ hheld
    refine ⟨?_, ?_, ?_, ?_⟩
    · rw [hinbox]
      exact hheld.received
    · rw [hmerged]
      exact hheld.merged
    · rw [hwaiting, hview]
      exact fun hopen => hheld.below (hclosed hopen)
    · rw [hinbox, hview, hanswered, hconfig]
      exact fun hopen => hheld.above (hclosed hopen)

theorem TabsInv.report (h : TabsInv platform world) {state : Y}
    {content : Text} (hbehind : Behind world.db config)
    (hcontained : ∀ document ∈ world.db.documents, document.id = config.documentId →
      document.collaborationRevision = config.collaborationRevision ∧ state ≤ document.yUpdate)
    (hcontent : content = platform.textOf state) :
    TabsInv platform (world.report config state content) := by
  refine ⟨h.identified, h.shown, h.sessions, h.merges, fun report hreport => ?_⟩
  rcases List.mem_cons.mp hreport with rfl | hold
  · refine ⟨hbehind, fun document hdocument hid _ => (hcontained document hdocument hid).2, hcontent,
      ?_⟩
    intro revision hrevision
    rcases Option.map_eq_some_iff.mp hrevision with ⟨document, hfound, rfl⟩
    have hid := List.find?_some hfound
    rw [decide_eq_true_eq] at hid
    exact (hcontained document (List.mem_of_find?_eq_some hfound) hid).1
  · exact h.reports report hold

/-! ## Steps of a session -/

variable [OrderBot Y] {next : Tabs Y} {sender : Uuid}

section

variable (h : TabsInv platform world)
include h

theorem TabsInv.openDocument (hstep : world.step platform (.openDocument sender config) = some next)
    :
    TabsInv platform next := by
  simp only [Tabs.step] at hstep
  split at hstep
  · next hfree =>
    cases hstep
    rw [Bool.and_eq_true, Option.isNone_iff_eq_none, decide_eq_true_eq] at hfree
    refine h.put (fun session hsession => ?_) ⟨h.shown config hfree.2, ?_, ?_, ?_, ?_⟩
    · rw [hfree.1] at hsession
      cases hsession
    · rintro (hwaiting | htelling)
      · exact absurd rfl hwaiting
      · cases htelling
    · exact fun update hupdate => absurd hupdate List.not_mem_nil
    · intro update document htells
      cases htells
    · intro document _ _ _
      refine ⟨fun message hmessage => absurd hmessage List.not_mem_nil, ?_, ?_, ?_⟩
      · intro update record htells
        cases htells
      · intro _ bound _ _
        exact bot_le
      · intro _ hanswered
        cases hanswered
  · cases hstep

theorem TabsInv.loadDocumentState
    (hstep : world.step platform (.loadDocumentState sender) = some next) :
    TabsInv platform next := by
  simp only [Tabs.step] at hstep
  rcases Option.bind_eq_some_iff.mp hstep with ⟨session, hsession, hstep⟩
  have hkept := h.sessions sender session hsession
  split at hstep
  · next hloading =>
    split at hstep
    · next loaded hload =>
      cases hstep
      refine h.change hsession rfl rfl (fun hwaiting => hkept.current (.inl hwaiting)) hkept.waits
        le_rfl ?_
      intro document hdocument hid hrevision hheld
      have hsame : loaded = document := by
        refine h.identified.id_inj loaded (loadDocumentState_ok hload).1 document hdocument ?_
        rw [hid]
        exact loadDocumentState_id hload
      refine ⟨hheld.received, hheld.merged, fun hopen bound hstored hwaiting => ?_, ?_⟩
      · refine view_le.mpr ⟨(view_le.mp (hheld.below hopen bound hstored hwaiting)).1, ?_⟩
        intro update hanswer
        cases hanswer
        rw [hsame]
        exact hstored
      · intro _ _ bound hview _ _
        rw [← hsame]
        exact (view_le.mp hview).2 _ rfl
    · cases hstep
      refine h.change hsession rfl rfl (fun hwaiting => hkept.current (.inl hwaiting)) hkept.waits
        le_rfl ?_
      intro document _ _ _ hheld
      refine ⟨hheld.received, hheld.merged, fun hopen bound hstored hwaiting => ?_, ?_⟩
      · refine view_le.mpr ⟨(view_le.mp (hheld.below hopen bound hstored hwaiting)).1, ?_⟩
        intro update hanswer
        cases hanswer
      · intro _ hanswered
        cases hanswered
  · cases hstep

theorem TabsInv.becomeReady (hstep : world.step platform (.becomeReady sender) = some next)
    : TabsInv platform next := by
  simp only [Tabs.step] at hstep
  rcases Option.bind_eq_some_iff.mp hstep with ⟨session, hsession, hstep⟩
  have hkept := h.sessions sender session hsession
  split at hstep
  · next update hanswer =>
    split at hstep
    · cases hstep
    cases hstep
    refine h.change hsession rfl rfl (fun hwaiting => hkept.current (.inl hwaiting))
      (fun other hother => (hkept.waits other hother).trans le_sup_left) le_sup_left ?_
    intro document _ _ _ hheld
    have hanswered : session.answered = true := by
      rw [DocumentSession.answered, hanswer]
    refine ⟨hheld.received, hheld.merged, fun hopen bound hstored hwaiting => ?_, ?_⟩
    · rcases view_le.mp (hheld.below hopen bound hstored hwaiting) with ⟨hydoc, hupdate⟩
      refine view_le.mpr ⟨sup_le hydoc (hupdate update hanswer), ?_⟩
      intro other hother
      cases hother
    · intro hopen _ bound hview hinbox htold
      rcases sup_le_iff.mp (view_le.mp hview).1 with ⟨hydoc, hupdate⟩
      refine hheld.above hopen hanswered bound (view_le.mpr ⟨hydoc, ?_⟩) hinbox htold
      intro other hother
      rw [hanswer] at hother
      cases hother
      exact hupdate
  · cases hstep

theorem TabsInv.edit (hguard : TabGuard platform world (.edit sender update))
    (hstep : world.step platform (.edit sender update) = some next) : TabsInv platform next := by
  simp only [Tabs.step] at hstep
  rcases Option.bind_eq_some_iff.mp hstep with ⟨session, hsession, hstep⟩
  have hkept := h.sessions sender session hsession
  split at hstep
  · cases hstep
  cases hstep
  refine h.change hsession rfl rfl (fun _ => hguard session hsession) ?_ le_sup_left ?_
  · intro other hother
    rcases List.mem_append.mp hother with hold | hnew
    · exact (hkept.waits other hold).trans le_sup_left
    · rw [List.mem_singleton.mp hnew]
      exact le_sup_right
  · intro document _ _ _ hheld
    refine ⟨hheld.received, hheld.merged, fun hopen bound hstored hwaiting => ?_, ?_⟩
    · have hold := hheld.below hopen bound hstored fun other hother =>
        hwaiting other (List.mem_append_left _ hother)
      rcases view_le.mp hold with ⟨hydoc, hanswer⟩
      refine view_le.mpr ⟨sup_le hydoc ?_, hanswer⟩
      exact hwaiting update (List.mem_append_right _ (List.mem_singleton_self update))
    · intro hopen hanswered bound hview hinbox htold
      rcases view_le.mp hview with ⟨hydoc, hanswer⟩
      exact hheld.above hopen hanswered bound
        (view_le.mpr ⟨(sup_le_iff.mp hydoc).1, hanswer⟩) hinbox htold

theorem TabsInv.deliver (hstep : world.step platform (.deliver sender) = some next)
    : TabsInv platform next := by
  simp only [Tabs.step] at hstep
  rcases Option.bind_eq_some_iff.mp hstep with ⟨session, hsession, hstep⟩
  have hkept := h.sessions sender session hsession
  split at hstep
  · next message rest hinbox =>
    split at hstep
    · cases hstep
    cases hstep
    refine h.change hsession rfl rfl (fun hwaiting => hkept.current (.inl hwaiting))
      (fun other hother => (hkept.waits other hother).trans le_sup_left) le_sup_left ?_
    intro document _ _ _ hheld
    have hreceived : message ≤ document.yUpdate := by
      refine hheld.received message ?_
      rw [hinbox]
      exact List.mem_cons_self
    refine ⟨fun other hother => ?_, hheld.merged, fun hopen bound hstored hwaiting => ?_, ?_⟩
    · refine hheld.received other ?_
      rw [hinbox]
      exact List.mem_cons_of_mem _ hother
    · rcases view_le.mp (hheld.below hopen bound hstored hwaiting) with ⟨hydoc, hanswer⟩
      exact view_le.mpr ⟨sup_le hydoc (hreceived.trans hstored), hanswer⟩
    · intro hopen hanswered bound hview hrest htold
      rcases view_le.mp hview with ⟨hydoc, hanswer⟩
      rcases sup_le_iff.mp hydoc with ⟨hbefore, hmessage⟩
      refine hheld.above hopen hanswered bound (view_le.mpr ⟨hbefore, hanswer⟩) ?_ htold
      rw [hinbox]
      intro other hother
      rcases List.mem_cons.mp hother with rfl | hlater
      · exact hmessage
      · exact hrest other hlater
  · cases hstep

theorem TabsInv.answerSnapshot {index : Nat}
    (hguard : TabGuard platform world (.answerSnapshot sender index))
    (hstep : world.step platform (.answerSnapshot sender index) = some next) :
    TabsInv platform next := by
  simp only [Tabs.step] at hstep
  rcases Option.bind_eq_some_iff.mp hstep with ⟨session, hsession, hstep⟩
  rcases Option.bind_eq_some_iff.mp hstep with ⟨awaited, -, hstep⟩
  have hkept := h.sessions sender session hsession
  split at hstep
  · cases hstep
  have hanswered : TabsInv platform
      (world.put sender { session with snapshots := session.snapshots.eraseIdx index }) :=
    h.aside hsession rfl rfl rfl rfl rfl rfl id
  split at hstep
  · cases hstep
    exact hanswered
  rename_i hreports
  cases hstep
  rw [Bool.or_eq_true, not_or, Bool.not_eq_true, Bool.not_eq_true] at hreports
  refine hanswered.report hkept.behind (fun document hdocument hid => ?_) rfl
  rcases hguard session hsession hreports.1 hreports.2 document hdocument hid with
    ⟨hempty, hrevision⟩
  refine ⟨hrevision, ?_⟩
  have hbelow := (hkept.held document hdocument hid hrevision).below hreports.1 document.yUpdate
    le_rfl
  rw [hempty] at hbelow
  exact (view_le.mp (hbelow fun update hupdate => absurd hupdate List.not_mem_nil)).1

end

/-! ## Merges -/

omit [OrderBot Y] in
/-- The documents after a merge, and before it. -/
theorem exists_before_merge
    (hmerge : mergeDocumentUpdate platform db config.projectId config.documentId update
      = .ok (db', record)) :
    ∀ document' ∈ db'.documents, ∃ document ∈ db.documents, document'.id = document.id
      ∧ document'.projectId = document.projectId
      ∧ document'.collaborationRevision = document.collaborationRevision
      ∧ document.yUpdate ≤ document'.yUpdate
      ∧ (document'.id ≠ config.documentId → document'.yUpdate = document.yUpdate)
      ∧ (document'.id = config.documentId →
        document' = record ∧ document'.yUpdate = document.yUpdate ⊔ update) := by
  rcases mergeDocumentUpdate_ok hmerge with ⟨-, document, hdocument, hid, hproject, hrecordId,
    hrecordProject, hrevision, hstate, -, hmem⟩
  intro document' hdocument'
  rcases (hmem document').mp hdocument' with rfl | ⟨hold, hne⟩
  · refine ⟨document, hdocument, hrecordId.trans hid.symm, hrecordProject.trans hproject.symm,
      hrevision, ?_, fun hne => absurd hrecordId hne, fun _ => ⟨rfl, hstate⟩⟩
    rw [hstate]
    exact le_sup_left
  · exact ⟨document', hold, rfl, rfl, rfl, le_rfl, fun _ => rfl, fun heq => absurd heq hne⟩

omit [OrderBot Y] in
theorem identified_merge (hidentified : Identified platform db)
    (hmerge : mergeDocumentUpdate platform db config.projectId config.documentId update
      = .ok (db', record)) : Identified platform db' := by
  rcases mergeDocumentUpdate_ok hmerge with ⟨hnext, document, hdocument, hid, -, hrecordId, -, -, -,
    hcontent, hmem⟩
  refine ⟨?_, ?_, ?_⟩
  · intro a ha b hb heq
    rcases (hmem a).mp ha with rfl | ⟨ha, hane⟩
    · rcases (hmem b).mp hb with rfl | ⟨-, hbne⟩
      · rfl
      · exact absurd (heq.symm.trans hrecordId) hbne
    · rcases (hmem b).mp hb with rfl | ⟨hb, -⟩
      · exact absurd (heq.trans hrecordId) hane
      · exact hidentified.id_inj a ha b hb heq
  · intro a ha
    rw [hnext]
    rcases (hmem a).mp ha with rfl | ⟨ha, -⟩
    · rw [hrecordId, ← hid]
      exact hidentified.drawn document hdocument
    · exact hidentified.drawn a ha
  · intro a ha
    rcases (hmem a).mp ha with rfl | ⟨ha, -⟩
    · exact hcontent
    · exact hidentified.content a ha

omit [OrderBot Y] in
theorem TabsInv.merge (h : TabsInv platform world) {rest : List Y}
    (hsession : world.sessions sender = some session) (hnone : session.merged = none)
    (hwaiting : session.waiting = update :: rest)
    (hmerge : mergeDocumentUpdate platform world.db session.config.projectId
      session.config.documentId update = .ok (db', record)) :
    TabsInv platform
      { world.put sender { session with waiting := rest, merged := some (update, record) } with
        db := db'
        merges := ⟨session.config, record.collaborationRevision⟩ :: world.merges } := by
  have hkept := h.sessions sender session hsession
  have hwaits : session.waiting ≠ [] := by
    rw [hwaiting]
    exact List.cons_ne_nil update rest
  have hcurrent := hkept.current (.inl hwaits)
  have hbefore := exists_before_merge hmerge
  have htext : record.content = platform.textOf record.yUpdate := by
    rcases mergeDocumentUpdate_ok hmerge with ⟨-, _, -, -, -, -, -, -, -, htext, -⟩
    exact htext
  have hprogress : Progress world.db db' := by
    refine ⟨(mergeDocumentUpdate_ok hmerge).1.ge, fun document' hdocument' _ => ?_⟩
    rcases hbefore document' hdocument' with
      ⟨document, hdocument, hid, hproject, hrevision, hle, -, -⟩
    exact ⟨document, hdocument, hid, hproject, hrevision.ge, fun _ => hle⟩
  have hstays : ∀ config, Current world.db config → Current db' config := by
    intro config hstored document' hdocument' hid'
    rcases hbefore document' hdocument' with ⟨document, hdocument, hid, -, hrevision, -⟩
    rw [hrevision]
    exact hstored document hdocument (hid.symm.trans hid')
  -- a session on the document that is merged into is on the channel of the one that merges
  have hchannel : ∀ config : DocumentConfig, Behind world.db config →
      ∀ document ∈ world.db.documents, document.id = config.documentId →
      document.collaborationRevision = config.collaborationRevision →
      document.id = session.config.documentId → session.config = config := by
    intro config hbehind document hdocument hid hrevision hmine
    have hproject := (hbehind.stored document hdocument hid).1
    have hproject' := (hkept.behind.stored document hdocument hmine).1
    have hrevision' := hcurrent document hdocument hmine
    rcases hconfig : session.config with ⟨projectId, documentId, revision⟩
    rcases config with ⟨otherProject, otherDocument, otherRevision⟩
    rw [hconfig] at hmine hproject' hrevision'
    dsimp only at hid hrevision hproject hmine hproject' hrevision'
    rw [← hproject', ← hrevision', ← hmine, hid, hrevision, hproject]
  have hold : ∀ config told, Announcing world.sessions config told →
      Announcing (world.put sender
        { session with waiting := rest, merged := some (update, record) }).sessions config told := by
    rintro config told ⟨other, session', document, hother, hconfig, htold⟩
    by_cases hsame : other = sender
    · subst hsame
      rw [hsession, Option.some.injEq] at hother
      rw [← hother, hnone] at htold
      cases htold
    · exact ⟨other, session', document, (world.put_of_ne hsame _).trans hother, hconfig, htold⟩
  -- what a session holds grows by what it will still be told
  have hheld : ∀ session', SessionKept platform world.db world.sessions session' →
      ∀ document' ∈ db'.documents, document'.id = session'.config.documentId →
      document'.collaborationRevision = session'.config.collaborationRevision →
      ∃ stored, Held world.sessions session' stored ∧ stored ≤ document'.yUpdate
        ∧ ∀ bound, stored ≤ bound →
          (∀ told, Announcing (world.put sender
            { session with waiting := rest, merged := some (update, record) }).sessions
            session'.config told → told ≤ bound) → document'.yUpdate ≤ bound := by
    intro session' hsession' document' hdocument' hid' hrevision'
    rcases hbefore document' hdocument' with
      ⟨document, hdocument, hid, -, hrevision, hle, hother, hmerged⟩
    have hidBefore := hid.symm.trans hid'
    have hrevisionBefore := hrevision.symm.trans hrevision'
    refine ⟨document.yUpdate, hsession'.held document hdocument hidBefore hrevisionBefore, hle, ?_⟩
    intro bound hbound htold
    by_cases hmine : document'.id = session.config.documentId
    · rw [(hmerged hmine).2]
      refine sup_le hbound (htold update ?_)
      exact ⟨sender, _, record, world.put_self .., hchannel session'.config hsession'.behind document
        hdocument hidBefore hrevisionBefore (hid.symm.trans hmine), rfl⟩
    · rw [hother hmine]
      exact hbound
  refine ⟨identified_merge h.identified hmerge, fun config hconfig =>
    (h.shown config hconfig).progress hprogress, ?_, ?_, fun report hreport =>
    (h.reports report hreport).progress hprogress⟩
  · intro other session' hother
    -- the sender has one update less to merge, and one to announce
    by_cases hsame : other = sender
    · subst hsame
      have hput := (world.put_self other _).symm.trans hother
      cases hput
      refine ⟨hkept.behind.progress hprogress, fun _ => hstays _ hcurrent, ?_, ?_, ?_⟩
      · intro later hlater
        refine hkept.waits later ?_
        rw [hwaiting]
        exact List.mem_cons_of_mem _ hlater
      · intro told document htells
        rw [Option.some.injEq, Prod.mk.injEq] at htells
        rw [← htells.1, ← htells.2]
        refine ⟨hkept.waits update ?_, htext⟩
        rw [hwaiting]
        exact List.mem_cons_self
      · intro document' hdocument' hid' hrevision'
        rcases hheld session hkept document' hdocument' hid' hrevision' with
          ⟨stored, hstored, hle, hbounded⟩
        rcases hbefore document' hdocument' with ⟨document, -, -, -, -, -, -, hmerged⟩
        rcases hmerged hid' with ⟨hrecord, hstate⟩
        have hupdate : update ≤ document'.yUpdate := by
          rw [hstate]
          exact le_sup_right
        refine ⟨fun message hmessage => (hstored.received message hmessage).trans hle, ?_, ?_, ?_⟩
        · intro told later htells
          rw [Option.some.injEq, Prod.mk.injEq] at htells
          rw [← htells.1, ← htells.2]
          exact ⟨hupdate, hrecord ▸ le_rfl⟩
        · intro hopen bound hbound hlater
          refine hstored.below hopen bound (hle.trans hbound) ?_
          rw [hwaiting]
          intro told htold
          rcases List.mem_cons.mp htold with rfl | hrest
          · exact hupdate.trans hbound
          · exact hlater told hrest
        · intro hopen hanswered bound hview hinbox htold
          exact hbounded bound (hstored.above hopen hanswered bound hview hinbox
            fun told hannounced => htold told (hold _ told hannounced)) htold
    · have hput := (world.put_of_ne hsame _).symm.trans hother
      have hsession' := h.sessions other session' hput
      refine ⟨hsession'.behind.progress hprogress, fun hbusy => hstays _ (hsession'.current hbusy),
        hsession'.waits, hsession'.tells, fun document' hdocument' hid' hrevision' => ?_⟩
      rcases hheld session' hsession' document' hdocument' hid' hrevision' with
        ⟨stored, hstored, hle, hbounded⟩
      refine ⟨fun message hmessage => (hstored.received message hmessage).trans hle, ?_, ?_, ?_⟩
      · intro told later htells
        rcases hstored.merged told later htells with ⟨htold, hlater⟩
        exact ⟨htold.trans hle, hlater.trans hle⟩
      · exact fun hopen bound hbound => hstored.below hopen bound (hle.trans hbound)
      · intro hopen hanswered bound hview hinbox htold
        exact hbounded bound (hstored.above hopen hanswered bound hview hinbox
          fun told hannounced => htold told (hold _ told hannounced)) htold
  · intro merge hmem
    rcases List.mem_cons.mp hmem with rfl | hold
    · rcases mergeDocumentUpdate_ok hmerge with ⟨-, document, hdocument, hid, -, -, -, hrevision, -⟩
      rw [hrevision]
      exact hcurrent document hdocument hid
    · exact h.merges merge hold

theorem TabsInv.persist (h : TabsInv platform world) {aborts : Bool}
    (hguard : TabGuard platform world (.persist sender aborts))
    (hstep : world.step platform (.persist sender aborts) = some next) : TabsInv platform next := by
  simp only [Tabs.step] at hstep
  rcases Option.bind_eq_some_iff.mp hstep with ⟨session, hsession, hstep⟩
  have hkept := h.sessions sender session hsession
  split at hstep
  · next update rest hnone hwaiting =>
    cases hstep
    unfold Tabs.persisted
    split
    · next db record htransaction =>
      have hmerge : mergeDocumentUpdate platform world.db session.config.projectId
          session.config.documentId update = .ok (db, record) := by
        unfold Tabs.mergeTransaction at htransaction
        split at htransaction
        · cases htransaction
        · exact toOption_eq_some.mp htransaction
      exact h.merge hsession hnone hwaiting hmerge
    · next hfails =>
      have hmem : ∀ later ∈ rest, later ∈ session.waiting := by
        rw [hwaiting]
        exact fun later hlater => List.mem_cons_of_mem _ hlater
      have hbusy : session.waiting ≠ [] := by
        rw [hwaiting]
        exact List.cons_ne_nil update rest
      refine h.change hsession rfl rfl (fun _ => hkept.current (.inl hbusy))
        (fun later hlater => hkept.waits later (hmem later hlater)) le_rfl ?_
      intro document hdocument hid _ hheld
      have hclosed : session.closed = true := by
        by_contra hopen
        have hcommits := hguard session update rest hsession (Bool.not_eq_true _ ▸ hopen) hwaiting
          document hdocument hid
        rw [hfails] at hcommits
        cases hcommits
      refine ⟨hheld.received, hheld.merged, fun hopen => ?_, fun hopen => ?_⟩
      · exact absurd (hclosed.symm.trans hopen) Bool.noConfusion
      · exact absurd (hclosed.symm.trans hopen) Bool.noConfusion
  · cases hstep

/-! ## Messages -/

omit [OrderBot Y] in
/-- A session is told of as merged, and its update is in the inbox of the others or shown by them
already. -/
theorem TabsInv.tell (h : TabsInv platform world)
    (hsession : world.sessions sender = some session)
    (htells : session.merged = some (update, record))
    {sessions : Uuid → Option (DocumentSession Y)} (hself : sessions sender
      = some { session.settled with merged := none, persistenceFailed := false })
    (hothers : ∀ other told, other ≠ sender → sessions other = some told →
      ∃ before, world.sessions other = some before
        ∧ ((told = { before with inbox := before.inbox ++ [update] }
            ∧ before.config = session.config)
          ∨ (told = before ∧ ∀ document ∈ world.db.documents,
            document.id = session.config.documentId → before.config = session.config →
            before.closed = false → before.answered = true → before.Covers update)))
    (hkeeps : ∀ other before, other ≠ sender → world.sessions other = some before →
      ∃ told, sessions other = some told ∧ told.config = before.config
        ∧ told.merged = before.merged) :
    TabsInv platform { world with sessions := sessions } := by
  have hkept := h.sessions sender session hsession
  -- what was on its way to the channel still is, but for the update
  have hannouncing : ∀ config told, Announcing world.sessions config told →
      Announcing sessions config told ∨ (told = update ∧ config = session.config) := by
    rintro config told ⟨other, before, document, hother, hconfig, htold⟩
    by_cases hsame : other = sender
    · subst hsame
      rw [hsession, Option.some.injEq] at hother
      subst hother
      rw [htells, Option.some.injEq, Prod.mk.injEq] at htold
      exact .inr ⟨htold.1.symm, hconfig.symm⟩
    · rcases hkeeps other before hsame hother with ⟨after, hafter, hconfig', hmerged'⟩
      exact .inl ⟨other, after, document, hafter, hconfig'.trans hconfig, hmerged'.trans htold⟩
  refine ⟨h.identified, h.shown, fun other told hother => ?_, h.merges, h.reports⟩
  by_cases hsame : other = sender
  · subst hsame
    have hput := hself.symm.trans hother
    cases hput
    refine ⟨hkept.behind, fun _ => hkept.current (.inr ?_), hkept.waits, ?_, ?_⟩
    · rw [htells]
      rfl
    · intro later document hlater
      cases hlater
    · intro document hdocument hid hrevision
      have hheld := hkept.held document hdocument hid hrevision
      refine ⟨hheld.received, ?_, hheld.below, ?_⟩
      · intro later record hlater
        cases hlater
      · intro hopen hanswered bound hview hinbox htold
        refine hheld.above hopen hanswered bound hview hinbox fun later hlater => ?_
        rcases hannouncing _ later hlater with hstill | ⟨rfl, -⟩
        · exact htold later hstill
        · exact (hkept.tells later record htells).1.trans (view_le.mp hview).1
  · rcases hothers other told hsame hother with ⟨before, hbefore, hchanged⟩
    have hbeforeKept := h.sessions other before hbefore
    rcases hchanged with ⟨rfl, hconfig⟩ | ⟨rfl, hcovers⟩
    · refine ⟨hbeforeKept.behind, hbeforeKept.current, hbeforeKept.waits, hbeforeKept.tells, ?_⟩
      intro document hdocument hid hrevision
      have hheld := hbeforeKept.held document hdocument hid hrevision
      have hupdate : update ≤ document.yUpdate := by
        refine ((hkept.held document hdocument ?_ ?_).merged update record htells).1
        · rw [hid, hconfig]
        · rw [hrevision, hconfig]
      refine ⟨fun message hmessage => ?_, hheld.merged, hheld.below, ?_⟩
      · rcases List.mem_append.mp hmessage with hold | hnew
        · exact hheld.received message hold
        · rw [List.mem_singleton.mp hnew]
          exact hupdate
      · intro hopen hanswered bound hview hinbox htold
        refine hheld.above hopen hanswered bound hview
          (fun message hmessage => hinbox message (List.mem_append_left _ hmessage)) ?_
        intro later hlater
        rcases hannouncing _ later hlater with hstill | ⟨rfl, -⟩
        · exact htold later hstill
        · exact hinbox later (List.mem_append_right _ (List.mem_singleton_self later))
    · refine ⟨hbeforeKept.behind, hbeforeKept.current, hbeforeKept.waits, hbeforeKept.tells, ?_⟩
      intro document hdocument hid hrevision
      have hheld := hbeforeKept.held document hdocument hid hrevision
      refine ⟨hheld.received, hheld.merged, hheld.below, ?_⟩
      intro hopen hanswered bound hview hinbox htold
      refine hheld.above hopen hanswered bound hview hinbox fun later hlater => ?_
      rcases hannouncing _ later hlater with hstill | ⟨rfl, hconfig⟩
      · exact htold later hstill
      · refine hcovers document hdocument ?_ hconfig hopen hanswered bound hview hinbox
        rw [hid, hconfig]

theorem TabsInv.announce (h : TabsInv platform world)
    (hguard : TabGuard platform world (.announce sender))
    (hstep : world.step platform (.announce sender) = some next) : TabsInv platform next := by
  simp only [Tabs.step] at hstep
  rcases Option.bind_eq_some_iff.mp hstep with ⟨session, hsession, hstep⟩
  rcases Option.bind_eq_some_iff.mp hstep with ⟨⟨update, record⟩, htells, hstep⟩
  cases hstep
  have hkept := h.sessions sender session hsession
  unfold Tabs.announced
  split
  · next hclosed =>
    -- a closed tab sends nothing; the guard covers whoever would have heard it
    refine h.tell hsession htells (world.put_self ..) ?_ ?_
    · intro other told hne hother
      refine ⟨told, (world.put_of_ne hne _).symm.trans hother, .inr ⟨rfl, ?_⟩⟩
      intro document hdocument hid hconfig hopen hanswered
      exact hguard session update record hsession htells hclosed document hdocument hid other told
        ((world.put_of_ne hne _).symm.trans hother) hconfig hopen hanswered
    · exact fun other before hne hbefore =>
        ⟨before, (world.put_of_ne hne _).trans hbefore, rfl, rfl⟩
  · next hopen =>
    have htold : TabsInv platform ((world.put sender
        { session.settled with merged := none, persistenceFailed := false }).post sender
        session.config update) := by
      refine h.tell hsession htells ?_ ?_ ?_
      · simp
      · intro other told hne hother
        rw [Tabs.put_of_ne _ hne] at hother
        rcases Option.map_eq_some_iff.mp hother with ⟨before, hbefore, rfl⟩
        refine ⟨before, hbefore, ?_⟩
        -- the open tabs of the same document receive the update
        by_cases hreceives : before.closed = false ∧ before.config = session.config
        · refine .inl ⟨?_, hreceives.2⟩
          rw [if_pos]
          simp [hne, hreceives.1, hreceives.2]
        refine .inr ⟨?_, fun _ _ _ hconfig hbeforeOpen => absurd ⟨hbeforeOpen, hconfig⟩ hreceives⟩
        rw [if_neg]
        intro hsent
        rw [Bool.and_eq_true, Bool.and_eq_true, decide_eq_true_eq, Bool.not_eq_true',
          decide_eq_true_eq] at hsent
        exact hreceives ⟨hsent.1.2, hsent.2⟩
      · intro other before hne hbefore
        have hput := (world.put_of_ne hne
          { session.settled with merged := none, persistenceFailed := false }).trans hbefore
        refine ⟨_, congrArg (Option.map _) hput, ?_, ?_⟩
        · dsimp only
          split
          · rfl
          · rfl
        · dsimp only
          split
          · rfl
          · rfl
    have hcurrent := hkept.current (.inr (by rw [htells]; rfl))
    refine htold.report hkept.behind (fun document hdocument hid => ?_) ?_
    · have hrevision := hcurrent document hdocument hid
      exact ⟨hrevision, ((hkept.held document hdocument hid hrevision).merged update record htells).2⟩
    · exact (hkept.tells update record htells).2

/-! ## Steps of the store -/

/-- The store commits, or aborts. -/
theorem TabsInv.store (hblank : platform.textOf ⊥ = []) (h : TabsInv platform world)
    {action : BrowserAction Y} (hguard : TabGuard platform world (.store action))
    (hordinary : ∀ projectId documentId update,
      action ≠ .mergeDocumentUpdate projectId documentId update) :
    TabsInv platform { world with db := world.db.transact platform action } := by
  unfold BrowserDatabase.transact
  split
  · next db hexec =>
    have hwritten := written_of_execute hblank h.identified hordinary hexec
    have hprogress := progress_of_written hwritten
    refine ⟨hwritten.identified, fun config hconfig => (h.shown config hconfig).progress hprogress,
      ?_, h.merges, fun report hreport => (h.reports report hreport).progress hprogress⟩
    intro sender session hsession
    have hkept := h.sessions sender session hsession
    refine ⟨hkept.behind.progress hprogress, fun hbusy document' hdocument' hid => ?_, hkept.waits,
      hkept.tells, fun document' hdocument' hid hrevision => ?_⟩
    · rcases hwritten.descends document' hdocument' with ⟨document, hdocument, hsame⟩
        | ⟨document, hdocument, hresets, hid', -, -⟩ | ⟨hnew⟩
      · rw [hsame.collaborationRevision]
        exact hkept.current hbusy document hdocument (hsame.id.symm.trans hid)
      · exact absurd hresets (hguard sender session hsession hbusy document hdocument
          (hid'.symm.trans hid))
      · exact absurd (hid ▸ hkept.behind.drawn) hnew.not_gt
    · rcases hwritten.descends document' hdocument' with ⟨document, hdocument, hsame⟩
        | ⟨document, hdocument, -, hid', -, hnext⟩ | ⟨hnew⟩
      · rw [hsame.yUpdate]
        exact hkept.held document hdocument (hsame.id.symm.trans hid)
          (hsame.collaborationRevision.symm.trans hrevision)
      · have hbehind := (hkept.behind.stored document hdocument (hid'.symm.trans hid)).2
        omega
      · exact absurd (hid ▸ hkept.behind.drawn) hnew.not_gt
  · exact h

theorem TabsInv.showDocument (h : TabsInv platform world) {documentId : Uuid}
    (hstep : world.step platform (.showDocument documentId) = some next) :
    TabsInv platform next := by
  simp only [Tabs.step] at hstep
  rcases Option.bind_eq_some_iff.mp hstep with ⟨document, hfound, hstep⟩
  cases hstep
  have hmem := List.mem_of_find?_eq_some hfound
  refine ⟨h.identified, fun config hconfig => ?_, h.sessions, h.merges, h.reports⟩
  rcases List.mem_cons.mp hconfig with rfl | hold
  · refine ⟨h.identified.drawn document hmem, fun other hother hid => ?_⟩
    rw [h.identified.id_inj other hother document hmem hid]
    exact ⟨rfl, le_rfl⟩
  · exact h.shown config hold

/-- Every step keeps the invariant. -/
theorem TabsInv.step (hblank : platform.textOf ⊥ = []) (h : TabsInv platform world)
    {action : TabAction Y} (hguard : TabGuard platform world action)
    (hstep : world.step platform action = some next) : TabsInv platform next := by
  cases action with
  | store action =>
    cases action with
    | mergeDocumentUpdate projectId documentId update => cases hstep
    | _ =>
      cases hstep
      exact h.store hblank hguard nofun
  | showDocument documentId => exact h.showDocument hstep
  | openDocument sender config => exact h.openDocument hstep
  | loadDocumentState sender => exact h.loadDocumentState hstep
  | becomeReady sender => exact h.becomeReady hstep
  | edit sender update => exact h.edit hguard hstep
  | persist sender aborts => exact h.persist hguard hstep
  | announce sender => exact h.announce hguard hstep
  | deliver sender => exact h.deliver hstep
  | sendSyncSnapshot sender =>
    simp only [Tabs.step] at hstep
    rcases Option.bind_eq_some_iff.mp hstep with ⟨session, hsession, hstep⟩
    cases hstep
    exact h.aside hsession rfl rfl rfl rfl rfl rfl id
  | answerSnapshot sender index => exact h.answerSnapshot hguard hstep
  | close sender =>
    simp only [Tabs.step] at hstep
    rcases Option.bind_eq_some_iff.mp hstep with ⟨session, hsession, hstep⟩
    cases hstep
    exact h.aside hsession rfl rfl rfl rfl rfl rfl fun hopen => absurd hopen Bool.noConfusion

/-! ## Runs -/

/-- What the tabs of a browser promise. -/
structure TabsConverge (platform : BrowserPlatform Y) (world : Tabs Y) : Prop where
  /-- What was reported as saved is stored, until the document is reset. -/
  saved : ∀ report ∈ world.reports, report.content = platform.textOf report.state
    ∧ ∀ document ∈ world.db.documents, document.id = report.config.documentId →
      document.collaborationRevision = report.config.collaborationRevision →
      report.state ≤ document.yUpdate
  /-- An open session that has persisted its updates and received those of its channel shows what
  is stored under its revision. -/
  shown : ∀ sender session, world.sessions sender = some session → session.closed = false →
    session.answered = true → session.waiting = [] → session.inbox = [] →
    (∀ update, ¬ Announcing world.sessions session.config update) →
    ∀ document ∈ world.db.documents, document.id = session.config.documentId →
      document.collaborationRevision = session.config.collaborationRevision →
      session.view = document.yUpdate ∧ platform.textOf session.view = document.content
  /-- No update was merged into a revision that it was not made against. -/
  merges : ∀ merge ∈ world.merges, merge.storedRevision = merge.config.collaborationRevision
  /-- Nor was it reported as saved there. -/
  reports : ∀ report ∈ world.reports, ∀ revision ∈ report.storedRevision,
    revision = report.config.collaborationRevision

theorem tabs_converge (hblank : platform.textOf ⊥ = []) {actions : List (TabAction Y)}
    (hrun : Run (Guarded (TabGuard platform)
      fun world action next => Tabs.step platform world action = some next)
      Tabs.empty actions world) : TabsConverge platform world := by
  have hinv : TabsInv platform world := hrun.invariant_of_guard
    (fun _ _ _ h hguard hstep => h.step hblank hguard hstep) tabsInv_empty
  refine ⟨fun report hreport => ?_, ?_, hinv.merges, fun report hreport =>
    (hinv.reports report hreport).current⟩
  · have hkept := hinv.reports report hreport
    exact ⟨hkept.content, hkept.contained⟩
  · intro sender session hsession hopen hanswered hwaiting hinbox hquiet document hdocument hid
      hrevision
    have hheld := (hinv.sessions sender session hsession).held document hdocument hid hrevision
    have hview : session.view = document.yUpdate := by
      refine le_antisymm (hheld.below hopen _ le_rfl ?_) (hheld.above hopen hanswered _ le_rfl ?_ ?_)
      · rw [hwaiting]
        exact fun update hupdate => absurd hupdate List.not_mem_nil
      · rw [hinbox]
        exact fun message hmessage => absurd hmessage List.not_mem_nil
      · exact fun update hupdate => absurd hupdate (hquiet update)
    rw [hview]
    exact ⟨rfl, (hinv.identified.content document hdocument).symm⟩

end Kept

/-! ## Tabs of one writer -/

def openedPaper : List (TabAction Register) :=
  [.showDocument 1, .openDocument 7 ⟨0, 1, 0⟩, .openDocument 8 ⟨0, 1, 0⟩, .loadDocumentState 7,
    .loadDocumentState 8, .becomeReady 7, .becomeReady 8]

def seedPaper : TabAction Register :=
  .store (.createSeededProject "Paper".toList articleSeed)

def writeTitles : TabAction Register :=
  .edit 7 (some (toLex (9, "= Titles".toList)))

/-- A text is uploaded over a document while an update of it waits: the update is merged into the
new text, and reported as saved. -/
theorem reset_document_is_overwritten :
    ¬ ∀ (actions : List (TabAction Register)) (world : Tabs Register),
      exec (Tabs.step soleWriter) Tabs.empty actions = some world →
      TabsConverge soleWriter world := by
  intro hall
  let actions : List (TabAction Register) :=
    seedPaper :: openedPaper ++ [writeTitles,
      .store (.upsertText 0 "main.typ".toList "= Section".toList none), .persist 7 false, .announce 7]
  let world := (exec (Tabs.step soleWriter) Tabs.empty actions).getD Tabs.empty
  have hexec : exec (Tabs.step soleWriter) Tabs.empty actions = some world :=
    eq_some_getD (by decide +kernel) _
  have hmerged : ∃ merge ∈ world.merges,
      merge.storedRevision ≠ merge.config.collaborationRevision := by
    decide +kernel
  rcases hmerged with ⟨merge, hmerge, hne⟩
  exact hne ((hall actions world hexec).merges merge hmerge)

/-- A step that meets `TabGuard` whatever other sessions do. -/
def meetsGuard (world : Tabs Register) : TabAction Register → Bool
  | .store _ | .answerSnapshot _ _ => false
  | .edit sender _ => (world.sessions sender).all fun session =>
    world.db.documents.all fun document => document.id = session.config.documentId
      → document.collaborationRevision = session.config.collaborationRevision
  | .persist sender aborts => (world.sessions sender).all fun session =>
    session.waiting.head?.all fun update =>
      (Tabs.mergeTransaction soleWriter world.db session.config update aborts).isSome
  | .announce sender => (world.sessions sender).all fun session => !session.closed
  | _ => true

theorem guard_of_meetsGuard {world : Tabs Register} {action : TabAction Register}
    (h : meetsGuard world action = true) : TabGuard soleWriter world action := by
  cases action with
  | store action => cases h
  | answerSnapshot sender index => cases h
  | edit sender update =>
    intro session hsession document hdocument hid
    rw [meetsGuard, hsession, Option.all_some, List.all_eq_true] at h
    exact of_decide_eq_true (h document hdocument) hid
  | persist sender aborts =>
    intro session update rest hsession _ hwaiting document _ _
    rw [meetsGuard, hsession, Option.all_some, hwaiting, List.head?_cons, Option.all_some] at h
    exact h
  | announce sender =>
    intro session update document hsession _ hclosed
    rw [meetsGuard, hsession, Option.all_some, hclosed] at h
    cases h
  | _ => trivial

/-- One tab writes, and the other shows it. -/
theorem titles_are_shown :
    ∃ world : Tabs Register, TabsConverge soleWriter world ∧ world.reports.length = 1
      ∧ (world.sessions 8).map (fun session => soleWriter.textOf session.view)
        = some "= Titles".toList := by
  let actions := openedPaper ++ [writeTitles, .persist 7 false, .announce 7, .deliver 8]
  let seeded := (Tabs.step soleWriter Tabs.empty seedPaper).getD Tabs.empty
  let world := (exec (fun world action =>
    if meetsGuard world action = true then Tabs.step soleWriter world action else none) seeded
    actions).getD Tabs.empty
  have hexec : exec (fun world action =>
      if meetsGuard world action = true then Tabs.step soleWriter world action else none) seeded
      actions = some world :=
    eq_some_getD (by decide +kernel) _
  have hrun := (exec_guarded_run hexec).mono fun _ _ _ hstep =>
    (⟨guard_of_meetsGuard hstep.1, hstep.2⟩ :
      Guarded (TabGuard soleWriter) (fun world action next =>
        Tabs.step soleWriter world action = some next) _ _ _)
  have hseeded : Guarded (TabGuard soleWriter) (fun world action next =>
      Tabs.step soleWriter world action = some next) Tabs.empty seedPaper seeded := by
    refine ⟨fun sender session hsession => ?_, rfl⟩
    cases hsession
  exact ⟨world, tabs_converge rfl (Run.cons hseeded hrun), by decide +kernel, by decide +kernel⟩

end Toss.BrowserBackend
