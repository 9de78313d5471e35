import Mathlib.Algebra.Order.Ring.Int
import Mathlib.Data.List.Induction
import Toss.Web.AgentContext

/-!
# What is left of a transcript

What the two loops over a transcript come to, and what a model's context has of it.

* `Paired` — calls are followed by their results before the next user message;
* `compactMessages_spec`, `dropTurns_spec`, `batchStart_spec` — the loops;
* `SoundReduction`, `context_reduction_is_sound` — which messages are left, and how much of them.
-/

namespace Toss.Web

variable {μ N : Type} [Ring N] [LinearOrder N]

/-! ## Calls and their results -/

inductive Role
  | user
  | assistant
  | toolResult
  | other
deriving DecidableEq

namespace AgentMessage

def role : AgentMessage μ → Role
  | .user _ => .user
  | .assistant .. => .assistant
  | .toolResult .. => .toolResult
  | .other _ => .other

def toolCallIds : AgentMessage μ → List JsString
  | .assistant content _ => content.filterMap fun part =>
    match part with
    | .toolCall id .. => some id
    | .other _ => none
  | _ => []

def toolResultId : AgentMessage μ → Option JsString
  | .toolResult toolCallId .. => some toolCallId
  | _ => none

/-- What of a message stays when its content is compacted. -/
def shape (message : AgentMessage μ) : Role × List JsString × Option JsString :=
  (message.role, message.toolCallIds, message.toolResultId)

theorem isUser_iff {message : AgentMessage μ} : message.isUser = true ↔ message.role = .user := by
  cases message with
  | user => exact iff_of_true rfl rfl
  | assistant | toolResult | other => exact iff_of_false nofun nofun

end AgentMessage

/-- The message at a place calls a tool. -/
def IsCall (messages : List (AgentMessage μ)) (place : Nat) (id : JsString) : Prop :=
  ∃ message, messages[place]? = some message ∧ id ∈ message.toolCallIds

def IsResult (messages : List (AgentMessage μ)) (place : Nat) (id : JsString) : Prop :=
  ∃ message, messages[place]? = some message ∧ message.toolResultId = some id

def IsUser (messages : List (AgentMessage μ)) (place : Nat) : Prop :=
  ∃ message, messages[place]? = some message ∧ message.isUser = true

/-- Every call is followed by its results before the next user message. -/
structure Paired (messages : List (AgentMessage μ)) : Prop where
  answered : ∀ place id, IsCall messages place id → ∃ later, place < later
    ∧ IsResult messages later id
  within : ∀ place later id, IsCall messages place id → IsResult messages later id →
    place < later → ∀ between, place < between → between ≤ later → ¬IsUser messages between

theorem original_of_shape {messages other : List (AgentMessage μ)}
    (h : other.map AgentMessage.shape = messages.map AgentMessage.shape) {place : Nat}
    {message : AgentMessage μ} (hat : other[place]? = some message) :
    ∃ original, messages[place]? = some original ∧ original.shape = message.shape := by
  have hplace := congrArg (fun shapes => shapes[place]?) h
  simp only [List.getElem?_map, hat, Option.map_some] at hplace
  exact Option.map_eq_some_iff.mp hplace.symm

theorem isCall_congr {messages other : List (AgentMessage μ)}
    (h : other.map AgentMessage.shape = messages.map AgentMessage.shape) (place : Nat)
    (id : JsString) : IsCall other place id → IsCall messages place id := by
  rintro ⟨message, hat, hid⟩
  rcases original_of_shape h hat with ⟨original, horiginal, hshape⟩
  refine ⟨original, horiginal, ?_⟩
  rw [show original.toolCallIds = message.toolCallIds from congrArg (fun shape => shape.2.1) hshape]
  exact hid

theorem isResult_congr {messages other : List (AgentMessage μ)}
    (h : other.map AgentMessage.shape = messages.map AgentMessage.shape) (place : Nat)
    (id : JsString) : IsResult other place id → IsResult messages place id := by
  rintro ⟨message, hat, hid⟩
  rcases original_of_shape h hat with ⟨original, horiginal, hshape⟩
  refine ⟨original, horiginal, ?_⟩
  rw [show original.toolResultId = message.toolResultId from
    congrArg (fun shape => shape.2.2) hshape]
  exact hid

theorem isUser_congr {messages other : List (AgentMessage μ)}
    (h : other.map AgentMessage.shape = messages.map AgentMessage.shape) (place : Nat) :
    IsUser other place → IsUser messages place := by
  rintro ⟨message, hat, huser⟩
  rcases original_of_shape h hat with ⟨original, horiginal, hshape⟩
  refine ⟨original, horiginal, AgentMessage.isUser_iff.mpr ?_⟩
  rw [show original.role = message.role from congrArg Prod.fst hshape]
  exact AgentMessage.isUser_iff.mp huser

theorem Paired.congr {messages other : List (AgentMessage μ)} (h : Paired messages)
    (hshape : other.map AgentMessage.shape = messages.map AgentMessage.shape) : Paired other where
  answered := by
    intro place id hcall
    rcases h.answered place id (isCall_congr hshape place id hcall) with ⟨later, hlater, hresult⟩
    exact ⟨later, hlater, isResult_congr hshape.symm later id hresult⟩
  within := by
    intro place later id hcall hresult hlater between hafter hbefore huser
    exact h.within place later id (isCall_congr hshape place id hcall)
      (isResult_congr hshape later id hresult) hlater between hafter hbefore
      (isUser_congr hshape between huser)

variable {messages : List (AgentMessage μ)} {estimateTokens : AgentMessage μ → N} {place : Nat}
  {message : AgentMessage μ}

/-- What follows from a place on. -/
theorem Paired.drop (h : Paired messages) (start : Nat) :
    Paired (messages.drop start) where
  answered := by
    rintro place id ⟨message, hat, hid⟩
    rw [List.getElem?_drop] at hat
    rcases h.answered (start + place) id ⟨message, hat, hid⟩ with
      ⟨later, hlater, result, hresult, hresultId⟩
    refine ⟨later - start, by omega, result, ?_, hresultId⟩
    rw [List.getElem?_drop, show start + (later - start) = later by omega]
    exact hresult
  within := by
    rintro place later id ⟨message, hat, hid⟩ ⟨result, hresult, hresultId⟩ hlater between hafter
      hbefore ⟨user, huserAt, huser⟩
    rw [List.getElem?_drop] at hat hresult huserAt
    exact h.within (start + place) (start + later) id ⟨message, hat, hid⟩
      ⟨result, hresult, hresultId⟩ (by omega) (start + between) (by omega) (by omega)
      ⟨user, huserAt, huser⟩

variable {start : Nat} {fits : List (AgentMessage μ) → Bool}

/-- A call and its result are on one side of a user message. -/
theorem Paired.together (h : Paired messages)
    (huser : IsUser messages start) {place later : Nat} {id : JsString}
    (hcall : IsCall messages place id) (hresult : IsResult messages later id)
    (hlater : place < later) : start ≤ place ↔ start ≤ later := by
  constructor
  · intro hstart
    omega
  · intro hstart
    by_contra hbefore
    exact h.within place later id hcall hresult hlater start (by omega) hstart huser

/-! ## Compaction keeps the shape -/

theorem toolCallIds_compact (content : List (AssistantPart μ)) (fields : μ) :
    (AgentMessage.assistant (content.filterMap AssistantPart.compact) fields).toolCallIds
      = (AgentMessage.assistant content fields).toolCallIds := by
  simp only [AgentMessage.toolCallIds, List.filterMap_filterMap]
  congr 1
  funext part
  cases part with
  | toolCall => rfl
  | other => rfl

theorem shape_compact (message : AgentMessage μ) :
    (compactToolHistoryMessage message).shape = message.shape := by
  cases message with
  | user | toolResult | other => rfl
  | assistant content fields =>
    simp only [compactToolHistoryMessage]
    split
    · simp only [AgentMessage.shape, toolCallIds_compact]
      rfl
    · rfl

/-- A tool message compacted, where that lowers its estimate. -/
def lowered (estimateTokens : AgentMessage μ → N) (message : AgentMessage μ) : AgentMessage μ :=
  if isToolMessage message = true
      ∧ estimateTokens (compactToolHistoryMessage message) < estimateTokens message then
    compactToolHistoryMessage message
  else message

omit [Ring N] in
theorem shape_lowered (estimateTokens : AgentMessage μ → N) (message : AgentMessage μ) :
    (lowered estimateTokens message).shape = message.shape := by
  unfold lowered
  split
  · exact shape_compact message
  · rfl

/-- Some of the messages at the places are lowered, and all of them where the budget is not met. -/
structure Compacts (estimateTokens : AgentMessage μ → N) (fits : List (AgentMessage μ) → Bool)
    (places : List Nat) (messages compacted : List (AgentMessage μ)) : Prop where
  others : ∀ place, place ∉ places → compacted[place]? = messages[place]?
  some : ∀ place ∈ places, compacted[place]? = messages[place]?
    ∨ compacted[place]? = messages[place]?.map (lowered estimateTokens)
  all : fits compacted = false → ∀ place ∈ places,
    compacted[place]? = messages[place]?.map (lowered estimateTokens)

omit [Ring N] in
/-- A message that stays is as low as it can be, or one later is lowered no more. -/
theorem Compacts.cons {places : List Nat} {messages first compacted : List (AgentMessage μ)}
    (hplace : place ∉ places)
    (hat : first[place]? = messages[place]?.map (lowered estimateTokens))
    (hothers : ∀ other, other ≠ place → first[other]? = messages[other]?)
    (h : Compacts estimateTokens fits places first compacted) :
    Compacts estimateTokens fits (place :: places) messages compacted where
  others := by
    intro other hother
    rw [List.mem_cons, not_or] at hother
    rw [h.others other hother.2, hothers other hother.1]
  some := by
    intro other hother
    rcases List.mem_cons.mp hother with rfl | hmem
    · rw [h.others other hplace]
      exact .inr hat
    · rw [← hothers other fun heq => hplace (heq ▸ hmem)]
      exact h.some other hmem
  all := by
    intro hover other hother
    rcases List.mem_cons.mp hother with rfl | hmem
    · rw [h.others other hplace]
      exact hat
    · rw [← hothers other fun heq => hplace (heq ▸ hmem)]
      exact h.all hover other hmem

omit [Ring N] in
theorem compactMessages_spec (estimateTokens : AgentMessage μ → N)
    (fits : List (AgentMessage μ) → Bool) {indices : List Nat}
    (count : Nat) (hnodup : indices.Nodup) (hbound : ∀ index ∈ indices, index < messages.length) :
    Compacts estimateTokens fits indices messages
      (compactMessages estimateTokens fits indices messages count).1 := by
  induction indices generalizing messages count with
  | nil =>
    constructor
    · exact fun _ _ => rfl
    · exact fun _ hplace => by cases hplace
    · exact fun _ _ hplace => by cases hplace
  | cons index indices ih =>
    rcases List.nodup_cons.mp hnodup with ⟨hfirst, hrest⟩
    have hindex : index < messages.length := hbound index List.mem_cons_self
    have hlater : ∀ place ∈ indices, place < messages.length :=
      fun place hplace => hbound place (List.mem_cons_of_mem _ hplace)
    have hat : messages[index]? = some messages[index] := List.getElem?_eq_getElem hindex
    -- a message that compaction does not lower stays as it is
    have hskip : lowered estimateTokens messages[index] = messages[index] →
        Compacts estimateTokens fits (index :: indices) messages
          (compactMessages estimateTokens fits indices messages count).1 := by
      intro hsame
      refine .cons hfirst ?_ (fun _ _ => rfl) (ih count hrest hlater)
      rw [hat, Option.map_some, hsame]
    simp only [compactMessages, hat]
    split
    · next hother =>
      refine hskip (if_neg ?_)
      rintro ⟨htool, _⟩
      rw [htool] at hother
      cases hother
    · next htool =>
      split
      · next hlow =>
        refine hskip (if_neg ?_)
        rintro ⟨_, hlower⟩
        exact absurd hlower (not_lt.mpr hlow)
      · next hlower =>
        -- a result that gets shorter is replaced
        have hlowered : lowered estimateTokens messages[index]
            = compactToolHistoryMessage messages[index] :=
          if_pos ⟨by simpa using htool, not_le.mp hlower⟩
        have hset : ∀ place, place ≠ index →
            (messages.set index (compactToolHistoryMessage messages[index]))[place]?
              = messages[place]? := fun place hne => List.getElem?_set_ne hne.symm
        have hsetAt : (messages.set index (compactToolHistoryMessage messages[index]))[index]?
            = messages[index]?.map (lowered estimateTokens) := by
          rw [List.getElem?_set_self hindex, hat, Option.map_some, hlowered]
        split
        · next hfits =>
          -- it is the last one that has to be
          constructor
          · intro place hplace
            exact hset place fun heq => hplace (heq ▸ List.mem_cons_self)
          · intro place hplace
            rcases List.mem_cons.mp hplace with rfl | hmem
            · exact .inr hsetAt
            · exact .inl (hset place fun heq => hfirst (heq ▸ hmem))
          · intro hover
            rw [hfits] at hover
            cases hover
        · refine .cons hfirst hsetAt hset (ih (count + 1) hrest ?_)
          intro place hplace
          rw [List.length_set]
          exact hlater place hplace

omit [Ring N] in
theorem Compacts.shape {places : List Nat} {messages compacted : List (AgentMessage μ)}
    (h : Compacts estimateTokens fits places messages compacted) :
    compacted.map AgentMessage.shape = messages.map AgentMessage.shape := by
  refine List.ext_getElem? fun place => ?_
  have heither : compacted[place]? = messages[place]?
      ∨ compacted[place]? = messages[place]?.map (lowered estimateTokens) := by
    by_cases hplace : place ∈ places
    · exact h.some place hplace
    · exact .inl (h.others place hplace)
  rw [List.getElem?_map, List.getElem?_map]
  rcases heither with hsame | hlowered
  · rw [hsame]
  rw [hlowered, Option.map_map]
  congr 1
  funext message
  exact shape_lowered estimateTokens message

/-! ## Turns -/

theorem mem_userIndices :
    place ∈ userIndices messages ↔ IsUser messages place := by
  unfold userIndices IsUser
  simp only [List.mem_filterMap, Prod.exists]
  constructor
  · rintro ⟨message, index, hmem, hindex⟩
    split at hindex
    · next huser =>
      cases hindex
      exact ⟨message, List.mem_zipIdx_iff_getElem?.mp hmem, huser⟩
    · cases hindex
  · rintro ⟨message, hat, huser⟩
    exact ⟨message, place, List.mem_zipIdx_iff_getElem?.mpr hat, if_pos huser⟩

theorem userIndices_sorted (messages : List (AgentMessage μ)) :
    (userIndices messages).Pairwise (· < ·) := by
  have hindices : messages.zipIdx.Pairwise fun entry later => entry.2 < later.2 := by
    rw [← List.pairwise_map (f := Prod.snd) (R := (· < ·)), List.zipIdx_map_snd]
    exact List.pairwise_lt_range'
  unfold userIndices
  refine hindices.filterMap _ ?_
  rintro ⟨message, index⟩ ⟨other, later⟩ hlt place hplace place' hplace'
  dsimp only at hplace hplace'
  split at hplace
  · split at hplace'
    · rw [Option.mem_some.mp hplace, Option.mem_some.mp hplace'] at hlt
      exact hlt
    · cases hplace'
  · cases hplace

/-- The loop over the later turns. -/
theorem dropTurns_spec (fits : Nat → Bool) (starts : List Nat) (start : Nat) :
    ∃ before after, start :: starts = before ++ dropTurns fits starts start :: after
      ∧ (∀ place ∈ before.tail, fits place = false)
      ∧ (after = [] ∨ before ≠ [] ∧ fits (dropTurns fits starts start) = true) := by
  induction starts generalizing start with
  | nil => exact ⟨[], [], rfl, nofun, .inl rfl⟩
  | cons nextStart starts ih =>
    simp only [dropTurns]
    split
    · next hfits =>
      exact ⟨[start], starts, rfl, nofun, .inr ⟨List.cons_ne_nil _ _, hfits⟩⟩
    rename_i hover
    rcases ih nextStart with ⟨before, after, hsplit, hbefore, hafter⟩
    refine ⟨start :: before, after, congrArg (start :: ·) hsplit, ?_, ?_⟩
    · intro place hplace
      cases before with
      | nil => cases hplace
      | cons first before =>
        rcases List.cons.inj hsplit with ⟨rfl, _⟩
        rcases List.mem_cons.mp hplace with rfl | hmem
        · simpa using hover
        · exact hbefore place hmem
    · rcases hafter with hnone | ⟨_, hfits⟩
      · exact .inl hnone
      · exact .inr ⟨List.cons_ne_nil _ _, hfits⟩

/-- The last user message. -/
def IsLastUser (messages : List (AgentMessage μ)) (place : Nat) : Prop :=
  IsUser messages place ∧ ∀ later, place < later → ¬IsUser messages later

/-- The last of a sorted list of places is the last user message. -/
theorem isLastUser_of_userIndices {before : List Nat}
    (h : userIndices messages = before ++ [place]) : IsLastUser messages place := by
  have hsorted := userIndices_sorted messages
  constructor
  · rw [← mem_userIndices, h]
    exact List.mem_append_right _ List.mem_cons_self
  · intro later hlater huser
    rw [← mem_userIndices, h] at huser
    rw [h, List.pairwise_append] at hsorted
    rcases List.mem_append.mp huser with hmem | hmem
    · have hlt := hsorted.2.2 later hmem place List.mem_cons_self
      omega
    · have heq := List.mem_singleton.mp hmem
      omega

theorem currentTurnStart_of_isLastUser
    (h : IsLastUser messages place) : currentTurnStart messages = place := by
  have hmem := mem_userIndices.mpr h.1
  rcases List.eq_nil_or_concat (userIndices messages) with hnil | ⟨before, last, hlast⟩
  · rw [hnil] at hmem
    cases hmem
  rw [List.concat_eq_append] at hlast
  have hlastUser := isLastUser_of_userIndices hlast
  have hsame : last = place := by
    rcases Nat.lt_trichotomy last place with hlt | heq | hgt
    · exact absurd h.1 (hlastUser.2 place hlt)
    · exact heq
    · exact absurd hlastUser.1 (h.2 last hgt)
  unfold currentTurnStart
  rw [hlast, List.getLast?_append_of_ne_nil _ (List.cons_ne_nil _ _), hsame]
  rfl

/-! ## The trailing batch -/

/-- A message that calls tools, with its results up to the end. -/
def IsBatch (batch : List (AgentMessage μ)) : Prop :=
  ∃ caller results, batch = caller :: results ∧ hasToolCall caller = true ∧ results ≠ []
    ∧ ∀ result ∈ results, result.isToolResult = true

/-- The trailing batch of messages, if there is one, and what is before it. -/
def SplitsBatch (older batch : List (AgentMessage μ)) : Prop :=
  IsBatch batch ∨ batch = [] ∧ ∀ other, other <:+ older → ¬IsBatch other

theorem hasToolCall_of_isToolResult
    (h : message.isToolResult = true) : hasToolCall message = false := by
  cases message with
  | toolResult => rfl
  | user | assistant | other => cases h

theorem hasToolCall_of_isUser (h : message.isUser = true) :
    hasToolCall message = false := by
  cases message with
  | user => rfl
  | toolResult | assistant | other => cases h

/-- There is no batch among results. -/
theorem not_isBatch_of_results {results batch : List (AgentMessage μ)}
    (h : ∀ result ∈ results, result.isToolResult = true) (hsuffix : batch <:+ results) :
    ¬IsBatch batch := by
  rintro ⟨caller, rest, rfl, hcaller, -, -⟩
  have hmem := hsuffix.subset List.mem_cons_self
  rw [hasToolCall_of_isToolResult (h caller hmem)] at hcaller
  cases hcaller

/-- A batch that ends in results begins with the message before them, or there is none. -/
theorem isBatch_cons {results pre batch : List (AgentMessage μ)}
    (hmessage : message.isToolResult = false)
    (hresults : ∀ result ∈ results, result.isToolResult = true)
    (hsuffix : batch <:+ pre ++ message :: results) (hbatch : IsBatch batch) :
    batch = message :: results := by
  rcases List.suffix_or_suffix_of_suffix hsuffix (List.suffix_append pre (message :: results)) with
    hwithin | hlonger
  · rcases List.suffix_cons_iff.mp hwithin with heq | hresult
    · exact heq
    · exact absurd hbatch (not_isBatch_of_results hresults hresult)
  rcases hbatch with ⟨caller, rest, rfl, hcaller, hne, hrest⟩
  rcases List.suffix_cons_iff.mp hlonger with heq | hresult
  · exact heq.symm
  · have hthere := hrest message (hresult.subset List.mem_cons_self)
    rw [hmessage] at hthere
    cases hthere

/-- The loop down to the first message, which calls no tool. -/
theorem batchStart_spec {first : AgentMessage μ}
    (hfirst : messages[0]? = some first) (huser : first.isUser = true)
    {pre results : List (AgentMessage μ)} (hsplit : messages = pre ++ results)
    (hresults : ∀ result ∈ results, result.isToolResult = true) :
    ∃ older batch, messages = older ++ batch ∧ SplitsBatch older batch
      ∧ batchStart messages 0 (!results.isEmpty) pre.length = older.length := by
  have hnone : (∀ batch, batch <:+ messages → ¬IsBatch batch) → ∃ older batch,
      messages = older ++ batch ∧ SplitsBatch older batch ∧ messages.length = older.length :=
    fun hno => ⟨messages, [], (List.append_nil _).symm, .inr ⟨rfl, hno⟩, rfl⟩
  induction pre using List.reverseRecOn generalizing results with
  | nil =>
    refine hnone fun batch hbatch => not_isBatch_of_results hresults ?_
    rw [hsplit] at hbatch
    exact hbatch
  | append_singleton pre message ih =>
    rw [List.append_assoc, List.singleton_append] at hsplit
    have hat : messages[pre.length]? = some message := by
      rw [hsplit, List.getElem?_append_right (le_refl _), Nat.sub_self]
      rfl
    rw [List.length_append, List.length_singleton]
    unfold batchStart
    split
    · next hstart =>
      -- the message before the results is the first, of the user
      have hzero : pre.length = 0 := by omega
      have hmessage : message = first := by
        rw [hzero, hfirst] at hat
        exact (Option.some.inj hat).symm
      refine hnone fun batch hsuffix hbatch => ?_
      rw [hsplit] at hsuffix
      have hresult : message.isToolResult = false := by
        rw [hmessage]
        cases first with
        | user => rfl
        | toolResult | assistant | other => cases huser
      rcases isBatch_cons hresult hresults hsuffix hbatch with rfl
      rcases hbatch with ⟨caller, rest, heq, hcaller, -, -⟩
      rw [← (List.cons.inj heq).1, hmessage, hasToolCall_of_isUser huser] at hcaller
      cases hcaller
    · rw [hat]
      dsimp only
      split
      · next hresult =>
        refine ih hsplit ?_
        intro result hmem
        rcases List.mem_cons.mp hmem with rfl | hmem
        · exact hresult
        · exact hresults result hmem
      · next hresult =>
        have hresult : message.isToolResult = false := by simpa using hresult
        split
        · next hcaller =>
          rw [Bool.and_eq_true, Bool.not_eq_true', List.isEmpty_eq_false_iff] at hcaller
          exact ⟨pre, message :: results, hsplit,
            .inl ⟨message, results, rfl, hcaller.2, hcaller.1, hresults⟩, rfl⟩
        · next hcaller =>
          refine hnone fun batch hsuffix hbatch => hcaller ?_
          rw [hsplit] at hsuffix
          rcases isBatch_cons hresult hresults hsuffix hbatch with rfl
          rcases hbatch with ⟨caller, rest, heq, hcalls, hne, -⟩
          rcases List.cons.inj heq with ⟨rfl, rfl⟩
          rw [hcalls, Bool.and_true, Bool.not_eq_true', List.isEmpty_eq_false_iff]
          exact hne

theorem latestToolBatchStart_spec {first : AgentMessage μ}
    (hfirst : messages[0]? = some first) (huser : first.isUser = true) :
    ∃ older batch, messages = older ++ batch ∧ SplitsBatch older batch
      ∧ latestToolBatchStart messages 0 = older.length :=
  batchStart_spec hfirst huser (List.append_nil messages).symm nofun

theorem not_mem_of_isBatch {batch : List (AgentMessage μ)} (h : IsBatch batch)
    (huser : message.isUser = true) : message ∉ batch := by
  rcases h with ⟨caller, results, rfl, hcaller, -, hresults⟩
  intro hmem
  rcases List.mem_cons.mp hmem with rfl | hmem
  · rw [hasToolCall_of_isUser huser] at hcaller
    cases hcaller
  have hresult := hresults message hmem
  cases message with
  | user => cases hresult
  | toolResult | assistant | other => cases huser

/-- There is one trailing batch. -/
theorem SplitsBatch.unique {older batch other : List (AgentMessage μ)} (h : SplitsBatch older batch)
    (hsuffix : other <:+ older ++ batch) (hother : IsBatch other) : other = batch := by
  rcases h with ⟨caller, results, rfl, hcaller, -, hresults⟩ | ⟨rfl, hnone⟩
  · refine isBatch_cons ?_ hresults hsuffix hother
    by_contra hresult
    rw [hasToolCall_of_isToolResult (by simpa using hresult)] at hcaller
    cases hcaller
  · rw [List.append_nil] at hsuffix
    exact absurd hother (hnone other hsuffix)

/-! ## One turn -/

omit [Ring N] in
theorem lowered_of_isUser
    (h : message.isUser = true) : lowered estimateTokens message = message := by
  refine if_neg ?_
  rintro ⟨htool, -⟩
  rw [isToolMessage, hasToolCall_of_isUser h, Bool.or_false] at htool
  cases message with
  | user => cases htool
  | toolResult | assistant | other => cases h

/-- What the compaction of one turn leaves. -/
structure CompactsTurn (estimateTokens : AgentMessage μ → N) (fits : List (AgentMessage μ) → Bool)
    (older batch compacted : List (AgentMessage μ)) : Prop where
  shape : compacted.map AgentMessage.shape = (older ++ batch).map AgentMessage.shape
  first : compacted[0]? = (older ++ batch)[0]?
  trailing : batch <:+ compacted
  all : fits compacted = false → compacted = older.map (lowered estimateTokens) ++ batch

omit [Ring N] in
theorem compactsTurn_of_compacts {user : AgentMessage μ}
    {older batch compacted : List (AgentMessage μ)} (huser : user.isUser = true)
    (h : Compacts estimateTokens fits (List.range' 1 ((user :: older).length - 1))
      (user :: older ++ batch) compacted) :
    CompactsTurn estimateTokens fits (user :: older) batch compacted := by
  have hplace : ∀ place, place ∈ List.range' 1 ((user :: older).length - 1)
      ↔ 1 ≤ place ∧ place < (user :: older).length := by
    intro place
    rw [List.mem_range'_1, List.length_cons]
    omega
  constructor
  · exact h.shape
  · refine h.others 0 fun hmem => ?_
    have hone := ((hplace 0).mp hmem).1
    omega
  · have hdrop : compacted.drop (user :: older).length = batch := by
      refine List.ext_getElem? fun place => ?_
      rw [List.getElem?_drop, h.others _ fun hmem => ?_]
      · rw [List.getElem?_append_right (Nat.le_add_right _ _), Nat.add_sub_cancel_left]
      · have hlt := ((hplace _).mp hmem).2
        omega
    rw [← hdrop]
    exact List.drop_suffix _ _
  · intro hover
    refine List.ext_getElem? fun place => ?_
    by_cases hmem : place ∈ List.range' 1 ((user :: older).length - 1)
    · have hlt := ((hplace place).mp hmem).2
      rw [h.all hover place hmem, List.getElem?_append_left hlt,
        List.getElem?_append_left (by rw [List.length_map]; exact hlt), List.getElem?_map]
    rw [h.others place hmem]
    rcases Nat.eq_zero_or_pos place with rfl | hpos
    · rw [List.map_cons, lowered_of_isUser huser]
      rfl
    have hge : (user :: older).length ≤ place := by
      by_contra hlt
      exact hmem ((hplace place).mpr ⟨hpos, not_le.mp hlt⟩)
    rw [List.getElem?_append_right hge,
      List.getElem?_append_right (by rw [List.length_map]; exact hge), List.length_map]

omit [Ring N] in
/-- The compaction of a turn. -/
theorem compactMessages_turn (estimateTokens : AgentMessage μ → N)
    (fits : List (AgentMessage μ) → Bool) {turn : List (AgentMessage μ)} (hturn : IsLastUser turn 0) :
    ∃ older batch, turn = older ++ batch ∧ SplitsBatch older batch
      ∧ CompactsTurn estimateTokens fits older batch
        (compactMessages estimateTokens fits
          (List.range' (max 0 (currentTurnStart turn + 1)).toNat
            (latestToolBatchStart turn (currentTurnStart turn)
              - (max 0 (currentTurnStart turn + 1)).toNat)) turn 0).1 := by
  rcases hturn.1 with ⟨user, hat, huser⟩
  rcases latestToolBatchStart_spec hat huser with ⟨older, batch, hsplit, hbatch, hstart⟩
  refine ⟨older, batch, hsplit, hbatch, ?_⟩
  -- the user message is before the batch
  cases older with
  | nil =>
    rcases hbatch with hisBatch | ⟨rfl, -⟩
    · have hmem : user ∈ batch := by
        rw [hsplit, List.nil_append] at hat
        exact List.mem_of_getElem? hat
      exact absurd hmem (not_mem_of_isBatch hisBatch huser)
    · rw [hsplit] at hat
      cases hat
  | cons first older =>
    have hfirst : first = user := by
      rw [hsplit] at hat
      exact Option.some.inj hat
    rw [hfirst] at hsplit hstart ⊢
    rw [show currentTurnStart turn = 0 from currentTurnStart_of_isLastUser hturn, hstart]
    show CompactsTurn estimateTokens fits (user :: older) batch
      (compactMessages estimateTokens fits (List.range' 1 ((user :: older).length - 1)) turn 0).1
    refine compactsTurn_of_compacts huser ?_
    rw [← hsplit]
    refine compactMessages_spec estimateTokens fits 0 List.nodup_range' ?_
    intro index hindex
    rw [List.mem_range'_1] at hindex
    rw [hsplit, List.length_append]
    omega

/-! ## Every transcript -/

/-- What is left of a transcript from the message at `start` on. -/
structure SoundReduction (estimateTokens : AgentMessage μ → N)
    (options : AiContextTransformOptions μ N) (start : Nat) : Prop where
  /-- It is cut at a user message, and a message left is compacted at most. -/
  cut : IsUser options.messages start
  shape : (transformAgentContext estimateTokens options).messages.map AgentMessage.shape
    = (options.messages.drop start).map AgentMessage.shape
  /-- Calls and their results stay together. -/
  paired : Paired (transformAgentContext estimateTokens options).messages
  together : ∀ place later id, IsCall options.messages place id → IsResult options.messages later id →
    place < later → (start ≤ place ↔ start ≤ later)
  lastUser : ∀ last, IsLastUser options.messages last → start ≤ last
    ∧ (transformAgentContext estimateTokens options).messages[last - start]? = options.messages[last]?
  trailing : ∀ batch, batch <:+ options.messages → IsBatch batch →
    batch <:+ (transformAgentContext estimateTokens options).messages
  whole : options.fits estimateTokens options.messages = true →
    (transformAgentContext estimateTokens options).messages = options.messages
  /-- No turn is dropped that would have fitted. -/
  fewest : options.fits estimateTokens options.messages = false →
    (∀ earlier, earlier < start → IsUser options.messages earlier →
      options.fits estimateTokens (options.messages.drop earlier) = false)
    ∧ (options.fits estimateTokens (options.messages.drop start) = true
        ∧ (transformAgentContext estimateTokens options).messages = options.messages.drop start
      ∨ IsLastUser options.messages start)
  overflow : (transformAgentContext estimateTokens options).overflow = true →
    ∃ last older batch, IsLastUser options.messages last
      ∧ options.messages.drop last = older ++ batch ∧ SplitsBatch older batch
      ∧ options.fits estimateTokens (older.map (lowered estimateTokens) ++ batch) = false

/-- Where the loop over the turns ends. -/
theorem dropTurns_start (fits : List (AgentMessage μ) → Bool)
    (huser : IsUser messages 0) (hover : fits messages = false) :
    let start := dropTurns (fun start => fits (messages.drop start)) (userIndices messages).tail 0
    IsUser messages start
      ∧ (∀ earlier, earlier < start → IsUser messages earlier → fits (messages.drop earlier) = false)
      ∧ (fits (messages.drop start) = true ∨ IsLastUser messages start) := by
  have hsorted := userIndices_sorted messages
  -- the first message is the first of the user's
  have hindices : userIndices messages = 0 :: (userIndices messages).tail := by
    have hmem := mem_userIndices.mpr huser
    cases hcases : userIndices messages with
    | nil =>
      rw [hcases] at hmem
      cases hmem
    | cons first rest =>
      rw [hcases] at hmem hsorted
      rcases List.mem_cons.mp hmem with rfl | hrest
      · rfl
      · have hlt := (List.pairwise_cons.mp hsorted).1 0 hrest
        omega
  -- the loop stops at one of the later turns
  rcases dropTurns_spec (fun start => fits (messages.drop start)) (userIndices messages).tail 0 with
    ⟨before, after, hsplit, hbefore, hafter⟩
  rw [← hindices] at hsplit
  generalize dropTurns (fun start => fits (messages.drop start)) (userIndices messages).tail 0
    = start at hsplit hafter ⊢
  refine ⟨?_, ?_, ?_⟩
  · rw [← mem_userIndices, hsplit]
    exact List.mem_append_right _ List.mem_cons_self
  · intro earlier hearlier hearlierUser
    have hmem := mem_userIndices.mpr hearlierUser
    rw [hsplit] at hmem hsorted
    rw [List.pairwise_append] at hsorted
    rcases List.mem_append.mp hmem with hthere | hlater
    · cases before with
      | nil => cases hthere
      | cons first before =>
        rcases List.mem_cons.mp hthere with rfl | hthere
        · rw [hindices] at hsplit
          rw [← (List.cons.inj hsplit).1]
          exact hover
        · exact hbefore earlier hthere
    · rcases List.mem_cons.mp hlater with rfl | hlater
      · omega
      · have hlt := (List.pairwise_cons.mp hsorted.2.1).1 earlier hlater
        omega
  · rcases hafter with rfl | ⟨-, hfits⟩
    · exact .inr (isLastUser_of_userIndices hsplit)
    · exact .inl hfits

theorem isLastUser_drop
    (h : IsLastUser messages start) : IsLastUser (messages.drop start) 0 := by
  rcases h with ⟨⟨user, hat, huser⟩, hlater⟩
  constructor
  · refine ⟨user, ?_, huser⟩
    rw [List.getElem?_drop]
    exact hat
  · rintro later hpos ⟨other, hother, hotherUser⟩
    rw [List.getElem?_drop] at hother
    exact hlater (start + later) (by omega) ⟨other, hother, hotherUser⟩

/-- A user message is not within a batch. -/
theorem batch_suffix_drop {messages batch : List (AgentMessage μ)}
    (hcut : IsUser messages start) (hsuffix : batch <:+ messages) (hbatch : IsBatch batch) :
    batch <:+ messages.drop start := by
  rcases List.suffix_or_suffix_of_suffix hsuffix (List.drop_suffix start messages) with
    hwithin | hlonger
  · exact hwithin
  rcases hcut with ⟨user, hat, huser⟩
  have hmem : user ∈ messages.drop start := by
    refine List.mem_of_getElem? (i := 0) ?_
    rw [List.getElem?_drop]
    exact hat
  exact absurd (hlonger.subset hmem) (not_mem_of_isBatch hbatch huser)

/-- In every transcript that begins with a user message and in which calls are followed by their
results, the context is cut at a user message; what is left keeps its calls and results, the last
user message and the trailing batch, and no more is left out than the budget makes necessary. -/
theorem context_reduction_is_sound (estimateTokens : AgentMessage μ → N)
    (options : AiContextTransformOptions μ N) (huser : IsUser options.messages 0)
    (hpaired : Paired options.messages) :
    ∃ start, SoundReduction estimateTokens options start := by
  cases hwhole : options.fits estimateTokens options.messages with
  | true =>
    -- the whole transcript fits
    have hresult : (transformAgentContext estimateTokens options).messages = options.messages := by
      unfold transformAgentContext
      rw [if_pos hwhole]
    have hoverflow : (transformAgentContext estimateTokens options).overflow = false := by
      unfold transformAgentContext
      rw [if_pos hwhole]
    refine ⟨0, huser, ?_, ?_, ?_, ?_, ?_, ?_, ?_, ?_⟩
    · rw [hresult, List.drop_zero]
    · rw [hresult]
      exact hpaired
    · exact fun place later id _ _ _ => iff_of_true (Nat.zero_le _) (Nat.zero_le _)
    · intro last _
      rw [hresult]
      exact ⟨Nat.zero_le _, rfl⟩
    · intro batch hbatch _
      rw [hresult]
      exact hbatch
    · exact fun _ => hresult
    · intro hover
      rw [hwhole] at hover
      cases hover
    · intro hover
      rw [hoverflow] at hover
      cases hover
  | false =>
    rcases dropTurns_start (options.fits estimateTokens) huser hwhole with
      ⟨hcut, hearlier, hends⟩
    generalize hstart : dropTurns (fun start => options.fits estimateTokens
      (options.messages.drop start)) (userIndices options.messages).tail 0 = start
      at hcut hearlier hends
    have hlastUser : ∀ last, IsLastUser options.messages last → start ≤ last := by
      intro last hlast
      by_contra hbefore
      exact hlast.2 start (not_le.mp hbefore) hcut
    cases hfits : options.fits estimateTokens (options.messages.drop start) with
    | true =>
      -- some suffix of whole turns fits, and no longer one does
      have hresult : (transformAgentContext estimateTokens options).messages
          = options.messages.drop start := by
        unfold transformAgentContext
        rw [if_neg (Bool.eq_false_iff.mp hwhole)]
        simp only [hstart, hfits, if_true]
      have hoverflow : (transformAgentContext estimateTokens options).overflow = false := by
        unfold transformAgentContext
        rw [if_neg (Bool.eq_false_iff.mp hwhole)]
        simp only [hstart, hfits, if_true]
        exact decide_eq_false (not_lt.mpr (of_decide_eq_true hfits))
      refine ⟨start, hcut, ?_, ?_, ?_, ?_, ?_, ?_, ?_, ?_⟩
      · rw [hresult]
      · rw [hresult]
        exact hpaired.drop start
      · exact fun place later id hcall hanswer hlater => hpaired.together hcut hcall hanswer hlater
      · intro last hlast
        refine ⟨hlastUser last hlast, ?_⟩
        rw [hresult, List.getElem?_drop, Nat.add_sub_cancel' (hlastUser last hlast)]
      · intro batch hsuffix hbatch
        rw [hresult]
        exact batch_suffix_drop hcut hsuffix hbatch
      · intro hthere
        rw [hwhole] at hthere
        cases hthere
      · exact fun _ => ⟨hearlier, .inl ⟨hfits, hresult⟩⟩
      · intro hover
        rw [hoverflow] at hover
        cases hover
    | false =>
      -- no suffix of turns fits: the last turn is kept, with older results compacted
      have hlast : IsLastUser options.messages start := hends.resolve_left (by rw [hfits]; exact nofun)
      rcases compactMessages_turn estimateTokens (options.fits estimateTokens)
        (isLastUser_drop hlast) with ⟨older, batch, hsplit, hbatch, hcompacted⟩
      generalize hmessages : (compactMessages estimateTokens (options.fits estimateTokens)
        (List.range' (max 0 (currentTurnStart (options.messages.drop start) + 1)).toNat
          (latestToolBatchStart (options.messages.drop start)
              (currentTurnStart (options.messages.drop start))
            - (max 0 (currentTurnStart (options.messages.drop start) + 1)).toNat))
        (options.messages.drop start) 0).1 = compacted at hcompacted
      have hresult : (transformAgentContext estimateTokens options).messages = compacted := by
        unfold transformAgentContext
        rw [if_neg (Bool.eq_false_iff.mp hwhole), ← hmessages]
        simp only [hstart, hfits, Bool.false_eq_true, if_false]
      have hoverflow : (transformAgentContext estimateTokens options).overflow = true →
          options.fits estimateTokens compacted = false := by
        intro hover
        unfold transformAgentContext at hover
        rw [if_neg (Bool.eq_false_iff.mp hwhole)] at hover
        simp only [hstart, hfits, Bool.false_eq_true, if_false, hmessages, decide_eq_true_eq] at hover
        exact decide_eq_false (not_le.mpr hover)
      refine ⟨start, hcut, ?_, ?_, ?_, ?_, ?_, ?_, ?_, ?_⟩
      · rw [hresult, hsplit]
        exact hcompacted.shape
      · rw [hresult]
        refine (hpaired.drop start).congr ?_
        rw [hsplit]
        exact hcompacted.shape
      · exact fun place later id hcall hanswer hlater => hpaired.together hcut hcall hanswer hlater
      · intro last hother
        -- there is one last user message
        have hsame : last = start := by
          rcases Nat.lt_or_ge start last with hlt | hge
          · exact absurd hother.1 (hlast.2 last hlt)
          · exact le_antisymm hge (hlastUser last hother)
        refine ⟨hlastUser last hother, ?_⟩
        rw [hresult, hsame, Nat.sub_self, hcompacted.first, ← hsplit, List.getElem?_drop,
          Nat.add_zero]
      · intro other hsuffix hother
        have hwithin := batch_suffix_drop hcut hsuffix hother
        rw [hsplit] at hwithin
        rw [hresult, hbatch.unique hwithin hother]
        exact hcompacted.trailing
      · intro hthere
        rw [hwhole] at hthere
        cases hthere
      · exact fun _ => ⟨hearlier, .inr hlast⟩
      · intro hover
        have hcompactedOver := hoverflow hover
        refine ⟨start, older, batch, hlast, hsplit, hbatch, ?_⟩
        rw [← hcompacted.all hcompactedOver]
        exact hcompactedOver

/-- A turn with two calls, the first with a long result. -/
def sampleTranscript : List (AgentMessage Unit) :=
  [.user (), .assistant [.toolCall [1] [2] .null ()] (),
   .toolResult [1] [2] [.text (List.replicate 100 65)] none (),
   .assistant [.toolCall [3] [2] .null ()] (), .toolResult [3] [2] [.text [65]] none ()]

/-- A token for each message and each unit of a result. -/
def sampleEstimate : AgentMessage Unit → Int
  | .toolResult _ _ content _ _ => 1 + (content.map fun part =>
      match part with
      | .text text => (text.length : Int)
      | .other _ => 0).sum
  | _ => 1

def sampleOptions : AiContextTransformOptions Unit Int :=
  ⟨sampleTranscript, [], [], 90, 20, 0⟩

theorem context_reduction_of_one_turn :
    (transformAgentContext sampleEstimate sampleOptions).compactedMessages = 1
      ∧ (transformAgentContext sampleEstimate sampleOptions).overflow = false
      ∧ ∃ start, SoundReduction sampleEstimate sampleOptions start := by
  refine ⟨by decide +kernel, by decide +kernel, context_reduction_is_sound _ _ ?_ ?_⟩
  · exact ⟨.user (), rfl, rfl⟩
  · have hcalls : ∀ place id, IsCall sampleTranscript place id →
        place = 1 ∧ id = [1] ∨ place = 3 ∧ id = [3] := by
      rintro place id ⟨message, hat, hid⟩
      match place with
      | 0 | 2 | 4 =>
        cases hat
        cases hid
      | 1 =>
        cases hat
        exact .inl ⟨rfl, List.mem_singleton.mp hid⟩
      | 3 =>
        cases hat
        exact .inr ⟨rfl, List.mem_singleton.mp hid⟩
      | place + 5 => cases hat
    constructor
    · intro place id hcall
      rcases hcalls place id hcall with ⟨rfl, rfl⟩ | ⟨rfl, rfl⟩
      · exact ⟨2, by omega, _, rfl, rfl⟩
      · exact ⟨4, by omega, _, rfl, rfl⟩
    · rintro place later id hcall - hlater between hafter - ⟨message, hat, huser⟩
      match between with
      | 0 => omega
      | 1 | 2 | 3 | 4 =>
        cases hat
        cases huser
      | between + 5 => cases hat

end Toss.Web
