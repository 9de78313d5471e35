import Toss.BrowserBackend.BrowserTree

/-!
# What a new browser project holds

The loops of `createSeededProject` and of `copyProject`: what they write for the new project,
and the tree that is laid out.

* `Adds` — a project is added, and no row of another is written;
* `seedFile_step`, `copyDocument_step`, `copyAsset_step` — one file;
* `createSeededProject_adds`, `copyProject_adds` — a new project.
-/

namespace Toss.BrowserBackend

open Toss.Foundation Toss.Workspace Toss.Web

variable {Y : Type}

/-- A project is added under the next key, and no row of another is written. -/
structure Adds (db db' : BrowserDatabase Y) (project : StoredBrowserProject) : Prop where
  id_eq : project.id = db.nextId
  projects : ∀ row, row ∈ db'.projects ↔ row = project ∨ row ∈ db.projects
  documents : ∀ document : StoredBrowserDocument Y, document.projectId ≠ db.nextId →
    (document ∈ db'.documents ↔ document ∈ db.documents)
  assets : ∀ asset : StoredBrowserAsset, asset.projectId ≠ db.nextId →
    (asset ∈ db'.assets ↔ asset ∈ db.assets)
  keyed : db'.Keyed
  nextId : db.nextId < db'.nextId

variable {ever : List (Uuid × Text)} {db db' : BrowserDatabase Y}

/-! ## Seeds -/

/-- A file of a seed that makes a document. -/
def BrowserTemplateFile.IsText (file : BrowserTemplateFile) : Prop :=
  ∃ content, file.content = .text content

/-- What the loop over the files of a seed has written, once it has been over `done`. -/
structure Seeded (db : BrowserDatabase Y) (projectId : Uuid) (done : List BrowserTemplateFile)
    (loop : SeedLoop Y) : Prop where
  keyed : loop.db.Keyed
  nextId : projectId < loop.db.nextId
  projects : loop.db.projects = db.projects
  other_documents : ∀ document : StoredBrowserDocument Y, document.projectId ≠ projectId →
    (document ∈ loop.db.documents ↔ document ∈ db.documents)
  other_assets : ∀ asset : StoredBrowserAsset, asset.projectId ≠ projectId →
    (asset ∈ loop.db.assets ↔ asset ∈ db.assets)
  documents : ∀ document ∈ loop.db.documents, document.projectId = projectId →
    document.path ∈ loop.paths ∧ document.changeSequence ≤ loop.documentsChangeSequence
      ∧ ∃ file ∈ done, file.IsText ∧ validPath file.path = .ok document.path
  assets : ∀ asset ∈ loop.db.assets, asset.projectId = projectId →
    asset.path ∈ loop.paths ∧ ∃ file ∈ done, validPath file.path = .ok asset.path
  apart : ∀ document ∈ loop.db.documents, document.projectId = projectId →
    ∀ asset ∈ loop.db.assets, asset.projectId = projectId → document.path ≠ asset.path
  texts : ∀ file ∈ done, file.IsText →
    ∃ document ∈ loop.db.documents, document.projectId = projectId
      ∧ validPath file.path = .ok document.path
  directories : ∀ directory, directory ∈ loop.directories
    ↔ ∃ file ∈ done, ∃ path, validPath file.path = .ok path ∧ directory ∈ ancestors path

variable [SemilatticeSup Y] [OrderBot Y] {platform : BrowserPlatform Y} {projectId : Uuid}

theorem seedFile_step {done : List BrowserTemplateFile} {file : BrowserTemplateFile}
    {loop loop' : SeedLoop Y} (h : Seeded db projectId done loop)
    (hstep : seedFile platform projectId loop file = .ok loop') :
    Seeded db projectId (done ++ [file]) loop' := by
  unfold seedFile at hstep
  rcases bind_eq_ok.mp hstep with ⟨path, hpath, hstep⟩
  split at hstep
  · cases hstep
  next hnew =>
  -- both kinds of file add their directories
  have hmem : ∀ other, other ∈ done ++ [file] ↔ other ∈ done ∨ other = file := by
    intro other
    rw [List.mem_append, List.mem_singleton]
  have hdirectories : ∀ directory, directory ∈ loop.directories ++ ancestors path
      ↔ ∃ other ∈ done ++ [file], ∃ found, validPath other.path = .ok found
        ∧ directory ∈ ancestors found := by
    intro directory
    rw [List.mem_append, h.directories]
    constructor
    · rintro (⟨other, hother, hrest⟩ | hparent)
      · exact ⟨other, (hmem other).mpr (.inl hother), hrest⟩
      · exact ⟨file, (hmem file).mpr (.inr rfl), path, hpath, hparent⟩
    · rintro ⟨other, hother, found, hfound, hparent⟩
      rcases (hmem other).mp hother with hother | rfl
      · exact .inl ⟨other, hother, found, hfound, hparent⟩
      · rw [hpath, Except.ok.injEq] at hfound
        rw [hfound]
        exact .inr hparent
  split at hstep
  · next content hcontent =>
    -- a document, with a sequence of its own
    rcases bind_eq_ok.mp hstep with ⟨next, hput, hstep⟩
    cases hstep
    have hnextKeyed := h.keyed.drawn.putDocument hput (Nat.lt_succ_self _)
      (Nat.lt_succ_of_lt h.nextId)
    rcases BrowserDatabase.putDocument_ok hput with ⟨rfl, -⟩
    have hold : ∀ document ∈ loop.db.documents, document.id ≠ loop.db.nextId :=
      fun document hdocument => (h.keyed.documents_drawn document hdocument).1.ne
    constructor
    · exact hnextKeyed
    · exact Nat.lt_succ_of_lt h.nextId
    · exact h.projects
    · intro document hother
      rw [← h.other_documents document hother]
      exact mem_upsertRow_of_ne (fun heq => hother (by rw [heq])) (hold document)
    · exact h.other_assets
    · intro document hdocument hproject
      rcases mem_upsertRow.mp hdocument with rfl | ⟨hdocument, -⟩
      · exact ⟨List.mem_cons_self, le_rfl, file, (hmem file).mpr (.inr rfl), ⟨content, hcontent⟩,
          hpath⟩
      · rcases h.documents document hdocument hproject with ⟨hin, hsequence, other, hother, hrest⟩
        exact ⟨List.mem_cons_of_mem _ hin, hsequence.trans (Int.le_add_one le_rfl), other,
          (hmem other).mpr (.inl hother), hrest⟩
    · intro asset hasset hproject
      rcases h.assets asset hasset hproject with ⟨hin, other, hother, hrest⟩
      exact ⟨List.mem_cons_of_mem _ hin, other, (hmem other).mpr (.inl hother), hrest⟩
    · intro document hdocument hproject asset hasset hassetProject
      rcases mem_upsertRow.mp hdocument with rfl | ⟨hdocument, -⟩
      · -- the loop takes no path twice
        intro heq
        apply hnew
        rw [show path = asset.path from heq]
        exact (h.assets asset hasset hassetProject).1
      · exact h.apart document hdocument hproject asset hasset hassetProject
    · intro other hother htext
      rcases (hmem other).mp hother with hother | rfl
      · rcases h.texts other hother htext with ⟨document, hdocument, hrest⟩
        exact ⟨document, mem_upsertRow.mpr (.inr ⟨hdocument, hold document hdocument⟩), hrest⟩
      · exact ⟨_, mem_upsertRow.mpr (.inl rfl), rfl, hpath⟩
    · exact hdirectories
  · next bytes contentType hcontent =>
    -- an asset, which draws no sequence
    split at hstep
    · cases hstep
    next bytes _ =>
    rcases bind_eq_ok.mp hstep with ⟨next, hput, hstep⟩
    cases hstep
    have hnextKeyed := h.keyed.drawn.putAsset hput (Nat.lt_succ_self _)
      (Nat.lt_succ_of_lt h.nextId)
    rcases BrowserDatabase.putAsset_ok hput with ⟨rfl, -⟩
    constructor
    · exact hnextKeyed
    · exact Nat.lt_succ_of_lt h.nextId
    · exact h.projects
    · exact h.other_documents
    · intro asset hother
      rw [← h.other_assets asset hother]
      exact mem_upsertRow_of_ne (fun heq => hother (by rw [heq]))
        fun hasset => (h.keyed.assets_drawn asset hasset).1.ne
    · intro document hdocument hproject
      rcases h.documents document hdocument hproject with ⟨hin, hsequence, other, hother, hrest⟩
      exact ⟨List.mem_cons_of_mem _ hin, hsequence, other, (hmem other).mpr (.inl hother), hrest⟩
    · intro asset hasset hproject
      rcases mem_upsertRow.mp hasset with rfl | ⟨hasset, -⟩
      · exact ⟨List.mem_cons_self, file, (hmem file).mpr (.inr rfl), hpath⟩
      · rcases h.assets asset hasset hproject with ⟨hin, other, hother, hrest⟩
        exact ⟨List.mem_cons_of_mem _ hin, other, (hmem other).mpr (.inl hother), hrest⟩
    · intro document hdocument hproject asset hasset hassetProject
      rcases mem_upsertRow.mp hasset with rfl | ⟨hasset, -⟩
      · intro heq
        apply hnew
        rw [show path = document.path from heq.symm]
        exact (h.documents document hdocument hproject).1
      · exact h.apart document hdocument hproject asset hasset hassetProject
    · intro other hother htext
      rcases (hmem other).mp hother with hother | rfl
      · exact h.texts other hother htext
      · rcases htext with ⟨content, htext⟩
        rw [hcontent] at htext
        cases htext
    · exact hdirectories

omit [SemilatticeSup Y] [OrderBot Y] in
theorem Seeded.adds {files : List BrowserTemplateFile} {loop : SeedLoop Y}
    {project : StoredBrowserProject} (h : Seeded db db.nextId files loop) (hkeyed : db.Keyed)
    (hid : project.id = db.nextId) : Adds db (loop.db.putProject project) project where
  id_eq := hid
  projects row := by
    rw [BrowserDatabase.putProject, mem_upsertRow, h.projects, hid]
    refine or_congr_right ⟨fun hrow => hrow.1, fun hrow => ⟨hrow, ?_⟩⟩
    exact (hkeyed.projects_drawn row hrow).ne
  documents := h.other_documents
  assets := h.other_assets
  keyed := h.keyed.putProject (hid ▸ h.nextId)
  nextId := h.nextId

/-- The path that a file of a seed gets; it is validated twice. -/
def seedPath (file : BrowserTemplateFile) : Except BrowserStoreError Text :=
  validPath file.path >>= validPath

/-- What a seed must be for its project to be laid out. -/
structure SeedGuard (seed : BrowserProjectSeed) : Prop where
  plain : ∀ file ∈ seedFiles seed, ∀ path, seedPath file = .ok path →
    ∀ parent ∈ ancestors path, IsPlainPath parent
  /-- No file lies above another. -/
  apart : ∀ file ∈ seedFiles seed, ∀ other ∈ seedFiles seed, ∀ path below,
    seedPath file = .ok path → seedPath other = .ok below → path ∉ ancestors below
  text : ∀ file ∈ seedFiles seed, file.IsText → ∀ path, seedPath file = .ok path →
    isTextFile path = true
  entry : ∃ file ∈ seedFiles seed, file.IsText ∧ seedPath file = validPath seed.entryFilePath

theorem normalized_file {raw file : BrowserTemplateFile}
    (h : (validPath raw.path).map (fun path => { raw with path }) = .ok file) :
    file.content = raw.content ∧ validPath raw.path = .ok file.path := by
  rcases map_eq_ok.mp h with ⟨path, hpath, rfl⟩
  exact ⟨rfl, hpath⟩

theorem createSeededProject_adds {name : Text} {seed : BrowserProjectSeed} (hkeyed : db.Keyed)
    (hever : ∀ entry ∈ ever, entry.1 < db.nextId) (hguard : SeedGuard seed)
    (h : createSeededProject platform db name seed = .ok db') :
    ∃ project, Adds db db' project ∧ ProjectTree ever db' project := by
  unfold createSeededProject at h
  rcases bind_eq_ok.mp h with ⟨name, -, h⟩
  rcases bind_eq_ok.mp h with ⟨entryFilePath, hentry, h⟩
  rcases bind_eq_ok.mp h with ⟨files, hfiles, h⟩
  rcases bind_eq_ok.mp h with ⟨⟨⟩, -, h⟩
  rcases bind_eq_ok.mp h with ⟨loop, hloop, h⟩
  cases h
  -- a normalized file is one of the seed
  have hnormalized : ∀ file ∈ files, ∃ raw ∈ seedFiles seed, raw.content = file.content
      ∧ seedPath raw = validPath file.path := by
    intro file hfile
    rcases (mem_mapM_ok hfiles).mp hfile with ⟨raw, hraw, hmap⟩
    rcases normalized_file hmap with ⟨hcontent, hpath⟩
    refine ⟨raw, hraw, hcontent.symm, ?_⟩
    unfold seedPath
    rw [hpath, ok_bind]
  have hseeded : Seeded db db.nextId files loop := by
    refine foldlM_ok hloop ?_ fun done file loop loop' hdone _ hstep => seedFile_step hdone hstep
    refine ⟨hkeyed.drawn, Nat.lt_succ_self _, rfl, fun _ _ => .rfl, fun _ _ => .rfl, ?_, ?_, ?_,
      by simp, by simp⟩
    · exact fun document hdocument hproject =>
        absurd hproject (hkeyed.documents_drawn document hdocument).2.ne
    · exact fun asset hasset hproject => absurd hproject (hkeyed.assets_drawn asset hasset).2.ne
    · exact fun document hdocument hproject =>
        absurd hproject (hkeyed.documents_drawn document hdocument).2.ne
  have hdirectory : ∀ directory, directory ∈ sortTexts loop.directories.dedup
      ↔ ∃ file ∈ files, ∃ path, validPath file.path = .ok path ∧ directory ∈ ancestors path := by
    intro directory
    rw [mem_sortTexts, List.mem_dedup, hseeded.directories]
  -- a path of the new project is that of a file
  have hfile : ∀ path, loop.db.IsFile db.nextId path →
      ∃ file ∈ files, validPath file.path = .ok path := by
    rintro path (⟨document, hdocument, hproject, rfl⟩ | ⟨asset, hasset, hproject, rfl⟩)
    · rcases hseeded.documents document hdocument hproject with ⟨-, -, file, hmem, -, hpath⟩
      exact ⟨file, hmem, hpath⟩
    · rcases hseeded.assets asset hasset hproject with ⟨-, file, hmem, hpath⟩
      exact ⟨file, hmem, hpath⟩
  refine ⟨_, hseeded.adds hkeyed rfl, ?_⟩
  constructor
  · constructor
    · exact nodup_sortTexts (List.nodup_dedup _)
    · intro path hpath hmem
      rcases hfile path hpath with ⟨file, hin, hvalid⟩
      rcases (hdirectory path).mp hmem with ⟨other, hother, below, hbelow, hparent⟩
      rcases hnormalized file hin with ⟨raw, hraw, -, hrawPath⟩
      rcases hnormalized other hother with ⟨rawOther, hrawOther, -, hrawOtherPath⟩
      exact hguard.apart raw hraw rawOther hrawOther path below (hrawPath.trans hvalid)
        (hrawOtherPath.trans hbelow) hparent
    · rintro path (hpath | hmem) parent hparent
      · rcases hfile path hpath with ⟨file, hin, hvalid⟩
        exact (hdirectory parent).mpr ⟨file, hin, path, hvalid, hparent⟩
      · rcases (hdirectory path).mp hmem with ⟨file, hin, below, hbelow, hpath⟩
        exact (hdirectory parent).mpr ⟨file, hin, below, hbelow, ancestors_trans hparent hpath⟩
    · intro path hmem
      rcases (hdirectory path).mp hmem with ⟨file, hin, below, hbelow, hpath⟩
      rcases hnormalized file hin with ⟨raw, hraw, -, hrawPath⟩
      exact hguard.plain raw hraw below (hrawPath.trans hbelow) path hpath
  · exact hseeded.apart
  · rcases hguard.entry with ⟨raw, hraw, ⟨content, hcontent⟩, hrawEntry⟩
    rcases exists_of_mapM_ok hfiles hraw with ⟨file, hmap⟩
    have hin := (mem_mapM_ok hfiles).mpr ⟨raw, hraw, hmap⟩
    have hsame := normalized_file hmap
    rcases hseeded.texts file hin ⟨content, hsame.1.trans hcontent⟩ with
      ⟨document, hdocument, hproject, hpath⟩
    refine ⟨document, hdocument, hproject, ?_⟩
    unfold seedPath at hrawEntry
    rw [hsame.2, ok_bind, hentry, hpath, Except.ok.injEq] at hrawEntry
    exact hrawEntry
  · exact fun document hdocument hproject => (hseeded.documents document hdocument hproject).2.1
  · intro document hdocument hproject
    rcases hseeded.documents document hdocument hproject with ⟨-, -, file, hin, ⟨content, htext⟩,
      hpath⟩
    rcases hnormalized file hin with ⟨raw, hraw, hcontent, hrawPath⟩
    exact hguard.text raw hraw ⟨content, hcontent.trans htext⟩ document.path (hrawPath.trans hpath)
  · intro asset _ _ hmem
    exact (hever _ hmem).ne rfl

/-! ## Copies -/

/-- What the loops of a copy have written, once they have been over some rows. -/
structure Copied (db : BrowserDatabase Y) (projectId : Uuid)
    (documents : List (StoredBrowserDocument Y)) (assets : List StoredBrowserAsset)
    (loop : BrowserDatabase Y) : Prop where
  keyed : loop.Keyed
  nextId : projectId < loop.nextId
  projects : loop.projects = db.projects
  other_documents : ∀ document : StoredBrowserDocument Y, document.projectId ≠ projectId →
    (document ∈ loop.documents ↔ document ∈ db.documents)
  other_assets : ∀ asset : StoredBrowserAsset, asset.projectId ≠ projectId →
    (asset ∈ loop.assets ↔ asset ∈ db.assets)
  of_document : ∀ document ∈ loop.documents, document.projectId = projectId →
    ∃ old ∈ documents, document.path = old.path ∧ document.changeSequence = old.changeSequence
  of_asset : ∀ asset ∈ loop.assets, asset.projectId = projectId →
    ∃ old ∈ assets, asset.path = old.path
  document : ∀ old ∈ documents, ∃ document ∈ loop.documents, document.projectId = projectId
    ∧ document.path = old.path
  asset : ∀ old ∈ assets, ∃ asset ∈ loop.assets, asset.projectId = projectId
    ∧ asset.path = old.path

variable {documents : List (StoredBrowserDocument Y)} {assets : List StoredBrowserAsset}

omit [SemilatticeSup Y] [OrderBot Y] in
theorem copyDocument_step {document : StoredBrowserDocument Y} {loop loop' : BrowserDatabase Y}
    (h : Copied db projectId documents assets loop)
    (hstep : copyDocument projectId loop document = .ok loop') :
    Copied db projectId (documents ++ [document]) assets loop' := by
  have hnextKeyed := h.keyed.drawn.putDocument hstep (Nat.lt_succ_self _)
    (Nat.lt_succ_of_lt h.nextId)
  rcases BrowserDatabase.putDocument_ok hstep with ⟨rfl, -⟩
  have hold : ∀ row ∈ loop.documents, row.id ≠ loop.nextId :=
    fun row hrow => (h.keyed.documents_drawn row hrow).1.ne
  refine ⟨hnextKeyed, Nat.lt_succ_of_lt h.nextId, h.projects, ?_, h.other_assets, ?_, h.of_asset, ?_,
    h.asset⟩
  · intro row hother
    rw [← h.other_documents row hother]
    exact mem_upsertRow_of_ne (fun heq => hother (by rw [heq])) (hold row)
  · intro row hrow hproject
    rcases mem_upsertRow.mp hrow with rfl | ⟨hrow, -⟩
    · exact ⟨document, by simp, rfl, rfl⟩
    · rcases h.of_document row hrow hproject with ⟨old, hmem, hrest⟩
      exact ⟨old, List.mem_append_left _ hmem, hrest⟩
  · intro old hmem
    rcases List.mem_append.mp hmem with hmem | hmem
    · rcases h.document old hmem with ⟨row, hrow, hrest⟩
      exact ⟨row, mem_upsertRow.mpr (.inr ⟨hrow, hold row hrow⟩), hrest⟩
    · rw [List.mem_singleton.mp hmem]
      exact ⟨_, mem_upsertRow.mpr (.inl rfl), rfl, rfl⟩

omit [SemilatticeSup Y] [OrderBot Y] in
theorem copyAsset_step {asset : StoredBrowserAsset} {loop loop' : BrowserDatabase Y}
    (h : Copied db projectId documents assets loop)
    (hstep : copyAsset platform projectId loop asset = .ok loop') :
    Copied db projectId documents (assets ++ [asset]) loop' := by
  have hnextKeyed := h.keyed.drawn.putAsset hstep (Nat.lt_succ_self _) (Nat.lt_succ_of_lt h.nextId)
  rcases BrowserDatabase.putAsset_ok hstep with ⟨rfl, -⟩
  have hold : ∀ row ∈ loop.assets, row.id ≠ loop.nextId :=
    fun row hrow => (h.keyed.assets_drawn row hrow).1.ne
  refine ⟨hnextKeyed, Nat.lt_succ_of_lt h.nextId, h.projects, h.other_documents, ?_, h.of_document,
    ?_, h.document, ?_⟩
  · intro row hother
    rw [← h.other_assets row hother]
    exact mem_upsertRow_of_ne (fun heq => hother (by rw [heq])) (hold row)
  · intro row hrow hproject
    rcases mem_upsertRow.mp hrow with rfl | ⟨hrow, -⟩
    · exact ⟨asset, by simp, rfl⟩
    · rcases h.of_asset row hrow hproject with ⟨old, hmem, hrest⟩
      exact ⟨old, List.mem_append_left _ hmem, hrest⟩
  · intro old hmem
    rcases List.mem_append.mp hmem with hmem | hmem
    · rcases h.asset old hmem with ⟨row, hrow, hrest⟩
      exact ⟨row, mem_upsertRow.mpr (.inr ⟨hrow, hold row hrow⟩), hrest⟩
    · rw [List.mem_singleton.mp hmem]
      exact ⟨_, mem_upsertRow.mpr (.inl rfl), rfl, rfl⟩

omit [SemilatticeSup Y] [OrderBot Y] in
theorem copyProject_adds {sourceProjectId : Uuid} {name : Text} (hkeyed : db.Keyed)
    (hever : ∀ entry ∈ ever, entry.1 < db.nextId)
    (hsource : ∀ project ∈ db.projects, project.id = sourceProjectId → ProjectTree ever db project)
    (h : copyProject platform db sourceProjectId name = .ok db') :
    ∃ project, Adds db db' project ∧ ProjectTree ever db' project := by
  unfold copyProject at h
  rcases bind_eq_ok.mp h with ⟨source, hget, h⟩
  rcases BrowserDatabase.getProject_ok hget with ⟨hmem, rfl⟩
  rcases bind_eq_ok.mp h with ⟨name, -, h⟩
  rcases bind_eq_ok.mp h with ⟨loop, hloop, h⟩
  have htree := hsource source hmem rfl
  have hcopiedKeyed : (db.drawn.putProject { source with id := db.nextId, name }).Keyed :=
    hkeyed.drawn.putProject (Nat.lt_succ_self _)
  have hstart : Copied (db.drawn.putProject { source with id := db.nextId, name }) db.nextId
      ([] : List (StoredBrowserDocument Y)) []
      (db.drawn.putProject { source with id := db.nextId, name }) := by
    refine ⟨hcopiedKeyed, Nat.lt_succ_self _, rfl, fun _ _ => .rfl, fun _ _ => .rfl, ?_, ?_, by simp,
      by simp⟩
    · exact fun document hdocument hproject =>
        absurd hproject (hkeyed.documents_drawn document hdocument).2.ne
    · exact fun asset hasset hproject => absurd hproject (hkeyed.assets_drawn asset hasset).2.ne
  have hdocuments := foldlM_ok (P := fun done loop => Copied _ db.nextId done [] loop) hloop hstart
    fun done document loop loop' hdone _ hstep => copyDocument_step hdone hstep
  have hcopied := foldlM_ok (P := fun done loop => Copied _ db.nextId _ done loop) h hdocuments
    fun done asset loop loop' hdone _ hstep => copyAsset_step hdone hstep
  refine ⟨{ source with id := db.nextId, name }, ⟨rfl, ?_, hcopied.other_documents,
    hcopied.other_assets, hcopied.keyed, hcopied.nextId⟩, ?_⟩
  · intro row
    rw [hcopied.projects, BrowserDatabase.putProject, mem_upsertRow]
    refine or_congr_right ⟨fun hrow => hrow.1, fun hrow => ⟨hrow, ?_⟩⟩
    exact (hkeyed.projects_drawn row hrow).ne
  -- a row of the copy lies where one of the source does
  have hfromDocument : ∀ document ∈ db'.documents, document.projectId = db.nextId →
      ∃ old ∈ db.documents, old.projectId = source.id ∧ document.path = old.path
        ∧ document.changeSequence = old.changeSequence := by
    intro document hdocument hproject
    rcases hcopied.of_document document hdocument hproject with ⟨old, hold, hrest⟩
    rcases BrowserDatabase.mem_documentsOf.mp hold with ⟨hold, holdProject⟩
    exact ⟨old, hold, holdProject, hrest⟩
  have hfromAsset : ∀ asset ∈ db'.assets, asset.projectId = db.nextId →
      ∃ old ∈ db.assets, old.projectId = source.id ∧ asset.path = old.path := by
    intro asset hasset hproject
    rcases hcopied.of_asset asset hasset hproject with ⟨old, hold, hrest⟩
    rcases BrowserDatabase.mem_assetsOf.mp hold with ⟨hold, holdProject⟩
    exact ⟨old, hold, holdProject, hrest⟩
  constructor
  · refine htree.paths.congr fun path => or_congr ⟨?_, ?_⟩ ⟨?_, ?_⟩
    · rintro ⟨document, hdocument, hproject, rfl⟩
      rcases hfromDocument document hdocument hproject with ⟨old, hold, holdProject, hpath, -⟩
      exact ⟨old, hold, holdProject, hpath.symm⟩
    · rintro ⟨old, hold, holdProject, rfl⟩
      exact hcopied.document old (BrowserDatabase.mem_documentsOf.mpr ⟨hold, holdProject⟩)
    · rintro ⟨asset, hasset, hproject, rfl⟩
      rcases hfromAsset asset hasset hproject with ⟨old, hold, holdProject, hpath⟩
      exact ⟨old, hold, holdProject, hpath.symm⟩
    · rintro ⟨old, hold, holdProject, rfl⟩
      exact hcopied.asset old (BrowserDatabase.mem_assetsOf.mpr ⟨hold, holdProject⟩)
  · intro document hdocument hproject asset hasset hassetProject
    rcases hfromDocument document hdocument hproject with ⟨old, hold, holdProject, hpath, -⟩
    rcases hfromAsset asset hasset hassetProject with ⟨other, hother, hotherProject, hotherPath⟩
    rw [hpath, hotherPath]
    exact htree.distinct old hold holdProject other hother hotherProject
  · rcases htree.entry with ⟨old, hold, holdProject, hentry⟩
    rcases hcopied.document old (BrowserDatabase.mem_documentsOf.mpr ⟨hold, holdProject⟩) with
      ⟨document, hdocument, hproject, hpath⟩
    exact ⟨document, hdocument, hproject, hpath.trans hentry⟩
  · intro document hdocument hproject
    rcases hfromDocument document hdocument hproject with ⟨old, hold, holdProject, -, hsequence⟩
    rw [hsequence]
    exact htree.sequence old hold holdProject
  · intro document hdocument hproject
    rcases hfromDocument document hdocument hproject with ⟨old, hold, holdProject, hpath, -⟩
    rw [hpath]
    exact htree.text_documents old hold holdProject
  · intro asset _ _ hmem
    exact (hever _ hmem).ne rfl

end Toss.BrowserBackend
