import RustFactory.Knowledge.Model
import RustFactory.Lib.Records
import RustFactory.Lib.Text

/-!
# Knowledge search over a static corpus

The service believes nothing of what an index answers: `checkDocuments` is a chain of comparisons of
each document with the request and with the last one.  The static index answers in the order of its
keys, so the chain can only break where the texts are too long together.
-/

namespace RustFactory.Knowledge

open RustFactory.Lib

/-! ## The index -/

def maxDocumentTextBytes : ℕ := 16384
def maxStaticDocuments : ℕ := 10000
def maxStaticTextBytes : ℕ := 67108864

def KnowledgeDocument.new (tenantId : TenantId) («namespace» : NamespaceId)
    (documentId : DocumentId) (text : String) : Except KnowledgeError KnowledgeDocument :=
  if text.isEmpty ∨ maxDocumentTextBytes < byteLen text then .error .invalidRequest
  else .ok ⟨tenantId, «namespace», documentId, text⟩

instance : LinearOrder Identifier :=
  LinearOrder.lift' Identifier.asStr fun a b h => by cases a; cases b; cases h; rfl

theorem Identifier.lt_iff {a b : Identifier} : a < b ↔ a.asStr < b.asStr := Iff.rfl

/-- What identifies a document in an index. -/
abbrev ScopedDocumentId := TenantId ×ₗ NamespaceId ×ₗ DocumentId

def KnowledgeDocument.scopedId (document : KnowledgeDocument) : ScopedDocumentId :=
  toLex (document.tenantId, toLex (document.namespace, document.documentId))

/-- An index of fixed documents. -/
structure StaticKnowledgeIndex where
  documents : BTreeMap ScopedDocumentId KnowledgeDocument

namespace StaticKnowledgeIndex

/-- The body of the loop over the documents: the bytes so far and the corpus so far. -/
def insertDocument (state : ℕ × BTreeMap ScopedDocumentId KnowledgeDocument)
    (document : KnowledgeDocument) :
    Except KnowledgeError (ℕ × BTreeMap ScopedDocumentId KnowledgeDocument) := do
  let total ← checkedAddWithLimit state.1 (byteLen document.text) maxStaticTextBytes
  if state.2.contains document.scopedId then .error .invalidRequest
  else .ok (total, state.2.insert document.scopedId document)

/-- An index of distinct documents within the bounds. -/
def new (documents : List KnowledgeDocument) : Except KnowledgeError StaticKnowledgeIndex :=
  if maxStaticDocuments < documents.length then .error .limitExceeded else do
    let state ← documents.foldlM insertDocument (0, ∅)
    .ok ⟨state.2⟩

end StaticKnowledgeIndex

/-- The document is in the scope of the request and its text contains the query. -/
def SearchRequest.matches (request : SearchRequest) (document : KnowledgeDocument) : Bool :=
  document.tenantId == request.context.tenantId && document.namespace == request.namespace &&
    decide (request.query.asStr.toList <:+: document.text.toList)

/-- The first documents of the scope that hold the query. -/
def StaticKnowledgeIndex.search (index : StaticKnowledgeIndex) (request : SearchRequest) :
    Except KnowledgeError (List KnowledgeDocument) :=
  .ok ((index.documents.values.filter request.matches).take request.limit.get.toNat)

/-! ## What the service checks -/

/-- The document as a caller sees it. -/
def KnowledgeDocument.hit (document : KnowledgeDocument) : KnowledgeHit :=
  ⟨document.documentId, document.text⟩

/-- The bytes of the texts together. -/
def textBytes (documents : List KnowledgeDocument) : ℕ :=
  (documents.map fun document => byteLen document.text).sum

theorem textBytes_cons (document : KnowledgeDocument) (documents : List KnowledgeDocument) :
    textBytes (document :: documents) = byteLen document.text + textBytes documents := rfl

theorem textBytes_concat (documents : List KnowledgeDocument) (document : KnowledgeDocument) :
    textBytes (documents ++ [document]) = textBytes documents + byteLen document.text := by
  unfold textBytes
  rw [List.map_append, List.sum_append]
  rfl

theorem checkedAddWithLimit_eq_ok {total additional limit sum : ℕ} (hlimit : limit < 2 ^ 64) :
    checkedAddWithLimit total additional limit = .ok sum ↔
      total + additional ≤ limit ∧ sum = total + additional := by
  unfold checkedAddWithLimit
  by_cases hfits : total + additional ≤ limit
  · rw [if_pos ⟨by omega, hfits⟩, Except.ok.injEq, eq_comm]
    exact (and_iff_right hfits).symm
  · rw [if_neg (fun h => hfits h.2)]
    exact iff_of_false nofun fun h => hfits h.1

/-- The documents are those of the request's scope, with ascending identifiers after the last. -/
structure Ordered (request : SearchRequest) (previous : Option DocumentId)
    (documents : List KnowledgeDocument) : Prop where
  scope : ∀ document ∈ documents,
    document.tenantId = request.context.tenantId ∧ document.namespace = request.namespace
  ascending : documents.Pairwise fun a b => a.documentId < b.documentId
  after : ∀ last ∈ previous, ∀ document ∈ documents, last < document.documentId

theorem inOrder_iff {request : SearchRequest} {previous : Option DocumentId}
    {document : KnowledgeDocument} : inOrder request previous document ↔
      (document.tenantId = request.context.tenantId ∧ document.namespace = request.namespace) ∧
        ∀ last ∈ previous, last < document.documentId := by
  unfold inOrder
  rw [Bool.and_eq_true, Bool.and_eq_true, beq_iff_eq, beq_iff_eq]
  refine and_congr_right fun _ => ?_
  cases previous with
  | none => exact iff_of_true rfl nofun
  | some last =>
    simp only [decide_eq_true_eq, Option.mem_some_iff, forall_eq']
    exact Iff.rfl

theorem ordered_cons {request : SearchRequest} {previous : Option DocumentId}
    {document : KnowledgeDocument} {documents : List KnowledgeDocument} :
    Ordered request previous (document :: documents) ↔
      inOrder request previous document ∧ Ordered request (some document.documentId) documents := by
  rw [inOrder_iff]
  constructor
  · rintro ⟨hscope, hascending, hafter⟩
    rw [List.forall_mem_cons] at hscope
    rw [List.pairwise_cons] at hascending
    refine ⟨⟨hscope.1, fun last hlast => hafter last hlast document List.mem_cons_self⟩, hscope.2,
      hascending.2, ?_⟩
    rintro last hlast
    obtain rfl := Option.mem_some_iff.mp hlast
    exact hascending.1
  · rintro ⟨⟨hscope, hlast⟩, hrest⟩
    have hrestAfter := hrest.after document.documentId rfl
    refine ⟨List.forall_mem_cons.mpr ⟨hscope, hrest.scope⟩,
      List.pairwise_cons.mpr ⟨hrestAfter, hrest.ascending⟩, fun last hmem => ?_⟩
    refine List.forall_mem_cons.mpr ⟨hlast last hmem, fun next hnext => ?_⟩
    exact (hlast last hmem).trans (hrestAfter next hnext)

/-- The loop passes exactly what is ordered and fits. -/
theorem checkDocuments_eq_ok {request : SearchRequest} {documents : List KnowledgeDocument}
    {previous : Option DocumentId} {total : ℕ} (htotal : total ≤ maxResultTextBytes) :
    checkDocuments request documents previous total = .ok () ↔
      Ordered request previous documents ∧ total + textBytes documents ≤ maxResultTextBytes := by
  induction documents generalizing previous total with
  | nil =>
    refine iff_of_true rfl ⟨⟨nofun, List.Pairwise.nil, nofun⟩, ?_⟩
    exact htotal
  | cons document documents ih =>
    rw [checkDocuments, ordered_cons, textBytes_cons]
    by_cases horder : inOrder request previous document
    · rw [if_pos horder, bind_eq_ok, and_iff_right horder]
      simp only [checkedAddWithLimit_eq_ok (show maxResultTextBytes < 2 ^ 64 by decide)]
      constructor
      · rintro ⟨sum, ⟨hsum, rfl⟩, h⟩
        rw [ih hsum] at h
        exact ⟨h.1, by omega⟩
      · rintro ⟨hordered, hfits⟩
        have hsum : total + byteLen document.text ≤ maxResultTextBytes := by omega
        exact ⟨_, ⟨hsum, rfl⟩, (ih hsum).mpr ⟨hordered, by omega⟩⟩
    · rw [if_neg horder]
      exact iff_of_false nofun fun h => horder h.1.1

theorem checkDocuments_of_ordered {request : SearchRequest} {documents : List KnowledgeDocument}
    {previous : Option DocumentId} {total : ℕ} (h : Ordered request previous documents)
    (hlarge : maxResultTextBytes < total + textBytes documents)
    (htotal : total ≤ maxResultTextBytes) :
    checkDocuments request documents previous total = .error .limitExceeded := by
  induction documents generalizing previous total with
  | nil =>
    have hnil : textBytes [] = 0 := rfl
    omega
  | cons document documents ih =>
    obtain ⟨horder, hrest⟩ := ordered_cons.mp h
    rw [checkDocuments, if_pos horder]
    rw [textBytes_cons] at hlarge
    cases hsum : checkedAddWithLimit total (byteLen document.text) maxResultTextBytes with
    | error e =>
      unfold checkedAddWithLimit at hsum
      split_ifs at hsum
      obtain rfl := Except.error.inj hsum
      rfl
    | ok sum =>
      obtain ⟨hfits, rfl⟩ :=
        (checkedAddWithLimit_eq_ok (show maxResultTextBytes < 2 ^ 64 by decide)).mp hsum
      exact ih hrest (by omega) hfits

/-- What an answer must be for the service to hand it on. -/
structure Checked (request : SearchRequest) (documents : List KnowledgeDocument)
    (result : SearchResult) : Prop where
  hits : result.hits = documents.map KnowledgeDocument.hit
  count : result.hits.length ≤ request.limit.get.toNat
  scope : ∀ document ∈ documents,
    document.tenantId = request.context.tenantId ∧ document.namespace = request.namespace
  ascending : result.hits.Pairwise fun a b => a.documentId < b.documentId
  size : (result.hits.map fun hit => byteLen hit.text).sum ≤ maxResultTextBytes

theorem checked_of_search {request : SearchRequest}
    {answer : Except KnowledgeError (List KnowledgeDocument)} {result : SearchResult}
    (h : search request answer = .ok result) :
    ∃ documents, answer = .ok documents ∧ Checked request documents result := by
  unfold search at h
  obtain ⟨documents, hanswer, h⟩ := bind_eq_ok.mp h
  split_ifs at h with hcount
  obtain ⟨⟨⟩, hcheck, h⟩ := bind_eq_ok.mp h
  obtain rfl := Except.ok.inj h
  obtain ⟨hordered, hsize⟩ := (checkDocuments_eq_ok (Nat.zero_le _)).mp hcheck
  refine ⟨documents, hanswer, rfl, ?_, hordered.scope, ?_, ?_⟩
  · show (documents.map KnowledgeDocument.hit).length ≤ _
    rw [List.length_map]
    exact Nat.not_lt.mp hcount
  · exact List.pairwise_map.mpr hordered.ascending
  · show ((documents.map KnowledgeDocument.hit).map fun hit => byteLen hit.text).sum ≤ _
    rw [List.map_map]
    rw [Nat.zero_add] at hsize
    exact hsize

/-! ## What the static index answers -/

/-- The first documents of the scope that contain the query, in the order of their identifiers. -/
def firstMatching (documents : List KnowledgeDocument) (request : SearchRequest) :
    List KnowledgeDocument :=
  ((documents.filter request.matches).mergeSort fun a b => a.documentId ≤ b.documentId).take
    request.limit.get.toNat

/-- The map has exactly the documents, under their identities. -/
abbrev StaticKnowledgeIndex.Holds (documents : List KnowledgeDocument)
    (m : BTreeMap ScopedDocumentId KnowledgeDocument) : Prop :=
  BTreeMap.Indexes KnowledgeDocument.scopedId id documents m

theorem StaticKnowledgeIndex.foldlM_insertDocument {documents : List KnowledgeDocument}
    {state : ℕ × BTreeMap ScopedDocumentId KnowledgeDocument} :
    documents.foldlM insertDocument (0, ∅) = .ok state ↔
      (documents.map KnowledgeDocument.scopedId).Nodup ∧
      textBytes documents ≤ maxStaticTextBytes ∧ state.1 = textBytes documents ∧
      Holds documents state.2 := by
  obtain ⟨total, m⟩ := state
  induction documents using List.reverseRecOn generalizing total m with
  | nil =>
    rw [List.foldlM_nil]
    constructor
    · intro h
      cases h
      exact ⟨List.nodup_nil, Nat.zero_le _, rfl, .empty⟩
    · rintro ⟨-, -, htotal, h⟩
      obtain rfl : total = 0 := htotal
      rw [show m = ∅ from h.unique .empty]
      rfl
  | append_singleton documents document ih =>
    rw [List.foldlM_append, bind_eq_ok, Prod.exists]
    simp only [ih, List.foldlM_cons, List.foldlM_nil, bind_pure]
    rw [List.map_append, List.map_singleton, ← List.concat_eq_append, List.nodup_concat,
      textBytes_concat]
    constructor
    · rintro ⟨_, before, ⟨hnodup, hsize, rfl, hholds⟩, hinsert⟩
      unfold insertDocument at hinsert
      obtain ⟨sum, hsum, hinsert⟩ := bind_eq_ok.mp hinsert
      obtain ⟨hfits, rfl⟩ :=
        (checkedAddWithLimit_eq_ok (show maxStaticTextBytes < 2 ^ 64 by decide)).mp hsum
      split_ifs at hinsert with hcontains
      cases hinsert
      obtain ⟨hfresh, hnext⟩ := (BTreeMap.indexes_concat_iff hnodup).mpr
        ⟨before, hholds, Bool.not_eq_true _ ▸ hcontains, rfl⟩
      exact ⟨⟨hfresh, hnodup⟩, hfits, rfl, hnext⟩
    · rintro ⟨⟨hfresh, hnodup⟩, hfits, htotal, hholds⟩
      obtain rfl : total = _ := htotal
      obtain ⟨before, hbefore, hcontains, hinsert⟩ :=
        (BTreeMap.indexes_concat_iff hnodup).mp ⟨hfresh, hholds⟩
      obtain rfl : m = _ := hinsert
      refine ⟨_, before, ⟨hnodup, by omega, rfl, hbefore⟩, ?_⟩
      unfold insertDocument
      refine bind_eq_ok.mpr ⟨_, (checkedAddWithLimit_eq_ok (by decide)).mpr ⟨hfits, rfl⟩, ?_⟩
      rw [hcontains]
      rfl

theorem StaticKnowledgeIndex.new_eq_ok {documents : List KnowledgeDocument}
    {index : StaticKnowledgeIndex} : new documents = .ok index ↔
      documents.length ≤ maxStaticDocuments ∧
      (documents.map KnowledgeDocument.scopedId).Nodup ∧
      textBytes documents ≤ maxStaticTextBytes ∧ Holds documents index.documents := by
  unfold new
  by_cases hcount : maxStaticDocuments < documents.length
  · rw [if_pos hcount]
    exact iff_of_false nofun fun h => absurd h.1 (Nat.not_le.mpr hcount)
  · rw [if_neg hcount, and_iff_right (Nat.not_lt.mp hcount), bind_eq_ok]
    simp only [foldlM_insertDocument]
    constructor
    · rintro ⟨⟨total, m⟩, ⟨hnodup, hsize, -, hholds⟩, h⟩
      obtain rfl := Except.ok.inj h
      exact ⟨hnodup, hsize, hholds⟩
    · rintro ⟨hnodup, hsize, hholds⟩
      exact ⟨(textBytes documents, index.documents), ⟨hnodup, hsize, rfl, hholds⟩, rfl⟩

theorem SearchRequest.matches_iff {request : SearchRequest} {document : KnowledgeDocument} :
    request.matches document ↔ (document.tenantId = request.context.tenantId ∧
      document.namespace = request.namespace) ∧
      request.query.asStr.toList <:+: document.text.toList := by
  unfold SearchRequest.matches
  rw [Bool.and_eq_true, Bool.and_eq_true, beq_iff_eq, beq_iff_eq, decide_eq_true_eq]

/-- In one scope the order of the keys is that of the identifiers. -/
theorem scopedId_lt_iff {a b : KnowledgeDocument} (htenant : a.tenantId = b.tenantId)
    (hnamespace : a.namespace = b.namespace) :
    a.scopedId < b.scopedId ↔ a.documentId < b.documentId := by
  unfold KnowledgeDocument.scopedId
  rw [htenant, hnamespace, Prod.Lex.toLex_lt_toLex, Prod.Lex.toLex_lt_toLex]
  simp only [lt_self_iff_false, true_and, false_or]

section Static

variable {documents : List KnowledgeDocument} {index : StaticKnowledgeIndex}
  (h : StaticKnowledgeIndex.new documents = .ok index) (request : SearchRequest)

include h

theorem mem_values_static {document : KnowledgeDocument} :
    document ∈ index.documents.values ↔ document ∈ documents := by
  obtain ⟨-, -, -, hholds⟩ := StaticKnowledgeIndex.new_eq_ok.mp h
  rw [BTreeMap.mem_values]
  simp only [hholds.lookup]
  constructor
  · rintro ⟨k, record, hmem, -, rfl⟩
    exact hmem
  · exact fun hmem => ⟨_, document, hmem, rfl, rfl⟩

theorem ascending_values_static :
    (index.documents.values.filter request.matches).Pairwise
      fun a b => a.documentId < b.documentId := by
  obtain ⟨-, -, -, hholds⟩ := StaticKnowledgeIndex.new_eq_ok.mp h
  have hkeys : index.documents.values.Pairwise fun a b => a.scopedId < b.scopedId := by
    rw [BTreeMap.values_eq_map_toList, List.pairwise_map]
    refine (BTreeMap.ordered_toList _).imp_of_mem fun {a b} ha hb hlt => ?_
    obtain ⟨x, -, hx, hax⟩ := (hholds.lookup _ _).mp (BTreeMap.mem_toList.mp ha)
    obtain ⟨y, -, hy, hby⟩ := (hholds.lookup _ _).mp (BTreeMap.mem_toList.mp hb)
    rw [show a.2.scopedId = a.1 by rw [hax]; exact hx, show b.2.scopedId = b.1 by rw [hby]; exact hy]
    exact hlt
  refine (hkeys.filter _).imp_of_mem fun {a b} ha hb hlt => ?_
  obtain ⟨⟨htenant, hnamespace⟩, -⟩ := SearchRequest.matches_iff.mp (List.mem_filter.mp ha).2
  obtain ⟨⟨htenant', hnamespace'⟩, -⟩ := SearchRequest.matches_iff.mp (List.mem_filter.mp hb).2
  exact (scopedId_lt_iff (htenant.trans htenant'.symm) (hnamespace.trans hnamespace'.symm)).mp hlt

theorem search_static_eq : index.search request = .ok (firstMatching documents request) := by
  obtain ⟨-, hnodup, -, -⟩ := StaticKnowledgeIndex.new_eq_ok.mp h
  unfold StaticKnowledgeIndex.search firstMatching
  congr 2
  refine BTreeMap.eq_of_mem_iff (f := KnowledgeDocument.documentId)
    (ascending_values_static h request) (BTreeMap.pairwise_mergeSort_of_ne ?_) fun document => ?_
  · have hne : documents.Pairwise fun a b => a.scopedId ≠ b.scopedId := List.pairwise_map.mp hnodup
    refine (hne.filter _).imp_of_mem fun {a b} ha hb hne heq => hne ?_
    obtain ⟨⟨htenant, hnamespace⟩, -⟩ := SearchRequest.matches_iff.mp (List.mem_filter.mp ha).2
    obtain ⟨⟨htenant', hnamespace'⟩, -⟩ := SearchRequest.matches_iff.mp (List.mem_filter.mp hb).2
    unfold KnowledgeDocument.scopedId
    rw [htenant, htenant', hnamespace, hnamespace', heq]
  · rw [List.mem_mergeSort, List.mem_filter, List.mem_filter, mem_values_static h]

theorem ordered_firstMatching : Ordered request none (firstMatching documents request) := by
  have heq := search_static_eq h request
  unfold StaticKnowledgeIndex.search at heq
  rw [← Except.ok.inj heq]
  refine ⟨fun document hmem => ?_, ?_, nofun⟩
  · exact (SearchRequest.matches_iff.mp (List.mem_filter.mp (List.mem_of_mem_take hmem)).2).1
  · exact (ascending_values_static h request).sublist (List.take_sublist _ _)

theorem search_of_static : search request (index.search request) =
    if textBytes (firstMatching documents request) ≤ maxResultTextBytes then
      .ok ⟨(firstMatching documents request).map KnowledgeDocument.hit⟩
    else .error .limitExceeded := by
  have hordered := ordered_firstMatching h request
  have hcount : ¬request.limit.get.toNat < (firstMatching documents request).length :=
    Nat.not_lt.mpr (List.length_take_le _ _)
  unfold search
  rw [search_static_eq h, ok_bind, if_neg hcount]
  by_cases hsize : textBytes (firstMatching documents request) ≤ maxResultTextBytes
  · rw [if_pos hsize, (checkDocuments_eq_ok (Nat.zero_le _)).mpr ⟨hordered, by omega⟩]
    rfl
  · rw [if_neg hsize, checkDocuments_of_ordered hordered (by omega) (Nat.zero_le _)]
    rfl

end Static

/-- Whatever the index is, an answer that is handed on has been checked.  The static index never
violates the protocol, and its answer is the first matching documents, unless their texts are
longer together than a result may be. -/
theorem search_checked :
    (∀ (index : SearchRequest → Except KnowledgeError (List KnowledgeDocument)) (request) (result),
      search request (index request) = .ok result →
        ∃ documents, index request = .ok documents ∧ Checked request documents result) ∧
    ∀ documents index request, StaticKnowledgeIndex.new documents = .ok index →
      search request (index.search request) ≠ .error .protocolViolation ∧
      search request (index.search request) =
        if textBytes (firstMatching documents request) ≤ maxResultTextBytes then
          .ok ⟨(firstMatching documents request).map KnowledgeDocument.hit⟩
        else .error .limitExceeded := by
  refine ⟨fun index request result h => checked_of_search h, fun documents index request h => ?_⟩
  have heq := search_of_static h request
  refine ⟨?_, heq⟩
  rw [heq]
  split_ifs
  · exact nofun
  · exact nofun

/-! ## Long documents -/

def sampleRequest : SearchRequest where
  context := ⟨⟨"tenant", by decide⟩, ⟨"principal", by decide⟩⟩
  «namespace» := ⟨"notes", by decide⟩
  query := ⟨"a", by decide⟩
  limit := ⟨5, by decide⟩

def sampleDocument (text : String) (documentId : DocumentId) : KnowledgeDocument :=
  ⟨sampleRequest.context.tenantId, sampleRequest.namespace, documentId, text⟩

def sampleIds : List DocumentId :=
  [⟨"e", by decide⟩, ⟨"b", by decide⟩, ⟨"d", by decide⟩, ⟨"a", by decide⟩, ⟨"c", by decide⟩]

theorem new_sample {text : String} (h : byteLen text ≤ maxDocumentTextBytes) :
    ∃ index, StaticKnowledgeIndex.new (sampleIds.map (sampleDocument text)) = .ok index := by
  have hnodup : ((sampleIds.map (sampleDocument text)).map KnowledgeDocument.scopedId).Nodup := by
    rw [List.map_map]
    refine List.Nodup.map (fun a b hab => ?_) (by decide)
    simpa [KnowledgeDocument.scopedId, sampleDocument] using hab
  have hsize : textBytes (sampleIds.map (sampleDocument text)) = 5 * byteLen text := by
    unfold textBytes sampleIds sampleDocument
    simp only [List.map_cons, List.map_nil, List.sum_cons, List.sum_nil]
    omega
  obtain ⟨m, hm⟩ := BTreeMap.exists_indexes KnowledgeDocument.scopedId id hnodup
  unfold maxDocumentTextBytes at h
  refine ⟨⟨m⟩, StaticKnowledgeIndex.new_eq_ok.mpr ⟨?_, hnodup, ?_, hm⟩⟩
  · rw [List.length_map]
    decide
  · rw [hsize]
    unfold maxStaticTextBytes
    omega

theorem firstMatching_sample :
    firstMatching (sampleIds.map (sampleDocument "a note")) sampleRequest =
      [⟨"a", by decide⟩, ⟨"b", by decide⟩, ⟨"c", by decide⟩, ⟨"d", by decide⟩, ⟨"e", by decide⟩].map
        (sampleDocument "a note") := by
  have hfilter : (sampleIds.map (sampleDocument "a note")).filter sampleRequest.matches =
      sampleIds.map (sampleDocument "a note") := by
    decide +kernel
  unfold firstMatching
  rw [hfilter]
  refine (congrArg (List.take 5) ?_).trans (List.take_of_length_le (by decide))
  refine BTreeMap.eq_of_mem_iff (f := KnowledgeDocument.documentId)
    (BTreeMap.pairwise_mergeSort_of_ne (by decide +kernel)) (by decide +kernel) fun document => ?_
  rw [List.mem_mergeSort]
  exact List.Perm.mem_iff (by decide +kernel)

/-- Short documents come back in the order of their identifiers. -/
theorem search_checked_sample :
    ∃ index, StaticKnowledgeIndex.new (sampleIds.map (sampleDocument "a note")) = .ok index ∧
      search sampleRequest (index.search sampleRequest) =
        .ok ⟨["a", "b", "c", "d", "e"].filterMap fun documentId =>
          (Identifier.new documentId).toOption.map fun documentId => ⟨documentId, "a note"⟩⟩ ∧
      ∃ documents, index.search sampleRequest = .ok documents ∧ Checked sampleRequest documents
        ⟨documents.map KnowledgeDocument.hit⟩ := by
  obtain ⟨index, hindex⟩ := @new_sample "a note" (by decide +kernel)
  have hsearch := (search_checked.2 _ index sampleRequest hindex).2
  rw [firstMatching_sample, if_pos (by decide +kernel)] at hsearch
  obtain ⟨documents, hdocuments, hchecked⟩ :=
    search_checked.1 index.search sampleRequest _ hsearch
  refine ⟨index, hindex, ?_, documents, hdocuments, ?_⟩
  · rw [hsearch]
    decide +kernel
  · rw [← hchecked.hits]
    exact hchecked

/-- As long as a text may be. -/
def longText : String := String.ofList (List.replicate maxDocumentTextBytes 'a')

theorem byteLen_longText : byteLen longText = 16384 := by
  unfold longText maxDocumentTextBytes
  rw [byteLen_ofList_of_ascii, List.length_replicate]
  intro c hc
  rw [List.eq_of_mem_replicate hc]
  decide

theorem matches_longDocument (documentId : DocumentId) :
    sampleRequest.matches (sampleDocument longText documentId) := by
  refine SearchRequest.matches_iff.mpr ⟨⟨rfl, rfl⟩, ?_⟩
  show ['a'] <:+: longText.toList
  unfold longText
  rw [String.toList_ofList]
  exact ⟨[], List.replicate 16383 'a', rfl⟩

/-- Five documents that are as long as they may be are a corpus, and all match, but the service
refuses them for a limit of five. -/
theorem search_of_long_documents :
    (∀ documentId, KnowledgeDocument.new sampleRequest.context.tenantId sampleRequest.namespace
      documentId longText = .ok (sampleDocument longText documentId)) ∧
    ∃ index, StaticKnowledgeIndex.new (sampleIds.map (sampleDocument longText)) = .ok index ∧
      search sampleRequest (index.search sampleRequest) = .error .limitExceeded ∧
      search sampleRequest (index.search sampleRequest) ≠
        .ok ⟨(firstMatching (sampleIds.map (sampleDocument longText)) sampleRequest).map
          KnowledgeDocument.hit⟩ := by
  have hbytes : byteLen longText ≤ maxDocumentTextBytes := byteLen_longText.le
  obtain ⟨index, hindex⟩ := new_sample hbytes
  have hall : (sampleIds.map (sampleDocument longText)).filter sampleRequest.matches =
      sampleIds.map (sampleDocument longText) := by
    refine List.filter_eq_self.mpr fun document hmem => ?_
    obtain ⟨documentId, -, rfl⟩ := List.mem_map.mp hmem
    exact matches_longDocument documentId
  have hsize : (firstMatching (sampleIds.map (sampleDocument longText)) sampleRequest).map
      (fun document => byteLen document.text) = List.replicate 5 16384 := by
    unfold firstMatching
    rw [hall]
    refine List.eq_replicate_iff.mpr ⟨?_, fun size hmem => ?_⟩
    · rw [List.length_map, List.length_take, List.length_mergeSort, List.length_map]
      rfl
    · obtain ⟨document, hdocument, rfl⟩ := List.mem_map.mp hmem
      have hsorted := List.mem_of_mem_take hdocument
      obtain ⟨documentId, -, rfl⟩ := List.mem_map.mp (List.mem_mergeSort.mp hsorted)
      exact byteLen_longText
  have hrefused : search sampleRequest (index.search sampleRequest) = .error .limitExceeded := by
    rw [search_of_static hindex, if_neg]
    unfold textBytes
    rw [hsize]
    decide
  refine ⟨fun documentId => ?_, index, hindex, hrefused, ?_⟩
  · unfold KnowledgeDocument.new
    refine if_neg (not_or.mpr ⟨?_, Nat.not_lt.mpr hbytes⟩)
    rw [String.isEmpty_iff]
    intro hempty
    have := byteLen_longText
    rw [hempty] at this
    exact absurd this (by decide)
  · rw [hrefused]
    exact nofun

end RustFactory.Knowledge
