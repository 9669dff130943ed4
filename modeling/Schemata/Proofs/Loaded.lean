import Schemata.DataType
import Schemata.Proofs.Keys
import Schemata.Proofs.Tree
import Schemata.Visibility

/-!
# Loaded catalogs

A catalog is loaded by putting in and taking out drafted documents (`Catalog.Loaded`). Then no two
of its documents share a file, each is a tree, and the laws of trees hold of the nodes of the
catalog. The second half of this module says them node by node, in the form in which questions about
a snapshot read the tree: what the children of an entity are, where the type of a member stands, and
to what a value belongs.
-/

namespace Schemata

variable {classes : Text.IdentifierClasses}

namespace Catalog

/-- Whether a catalog comes about by loading drafted documents and unloading files. -/
inductive Loaded [Text.IdentifierClasses] : Catalog → Prop
  | empty : Loaded .empty
  | insert {c : Catalog} {d : Document} (h : Loaded c) (hd : d.Drafted) : Loaded (c.insert d)
  | erase {c : Catalog} (h : Loaded c) (file : FileId) : Loaded (c.erase file)

/-- Drafted documents can be loaded one after the other. -/
theorem Loaded.ofDocuments {ds : List Document} (h : ∀ d ∈ ds, d.Drafted) :
    (Catalog.ofDocuments ds).Loaded := by
  suffices hfold : ∀ c : Catalog, c.Loaded → (ds.foldl Catalog.insert c).Loaded from
    hfold _ .empty
  induction ds with
  | nil => exact fun c hc ↦ hc
  | cons d ds ih =>
    intro c hc
    exact ih (fun e he ↦ h e (List.mem_cons_of_mem d he)) _ (hc.insert (h d List.mem_cons_self))

/-- One drafted document is loaded by itself. -/
theorem Loaded.ofDrafting (file : FileId) {name : String} (edits : List Edit)
    (h : Text.isQualifiedName name = true) :
    (Catalog.ofDocuments [.drafting file name edits]).Loaded := by
  refine Loaded.ofDocuments fun d hd ↦ ?_
  rw [List.mem_singleton.1 hd]
  exact Document.drafted_drafting file edits h

variable {c : Catalog}

theorem files_replace (d : Document) (ds : List Document) :
    (replace d ds).map (·.file) = ds.map (·.file) := by
  rw [replace, List.map_map]
  refine List.map_congr_left fun e _ ↦ ?_
  by_cases he : e.file = d.file <;> simp [he]

/-- Loading a document leaves no two documents of one file. -/
theorem nodup_files_insert (h : c.files.Nodup) (d : Document) : (c.insert d).files.Nodup := by
  rw [files, Catalog.insert]
  split
  · rw [files_replace]
    exact h
  · rename_i hnone
    rw [List.map_append, List.map_singleton]
    refine h.append (List.nodup_singleton _) fun f hf hf' ↦ hnone ?_
    obtain ⟨e, he, rfl⟩ := List.mem_map.1 hf
    exact List.any_eq_true.2 ⟨e, he, by simpa using hf'⟩

/-- Unloading a document leaves no two documents of one file. -/
theorem nodup_files_erase (h : c.files.Nodup) (file : FileId) : (c.erase file).files.Nodup :=
  h.sublist (List.filter_sublist.map _)

/-- Where no two documents are of one file, each is found under its own. -/
theorem document?_eq_some_of_mem (h : c.files.Nodup) {d : Document} (hd : d ∈ c.documents) :
    c.document? d.file = some d :=
  (find?_eq_some_iff_of_nodup h fun _ ↦ beq_iff_eq).2 ⟨hd, rfl⟩

namespace Loaded

/-- All documents of a loaded catalog are drafted. -/
theorem drafted (h : c.Loaded) : ∀ d ∈ c.documents, d.Drafted := by
  induction h with
  | empty => simp [Catalog.empty]
  | @insert c d h hd ih =>
    intro e he
    rw [Catalog.insert] at he
    split at he
    · obtain ⟨e', he', heq⟩ := List.mem_map.1 he
      split at heq
      · exact heq ▸ hd
      · exact heq ▸ ih e' he'
    · rcases List.mem_append.1 he with he | he
      · exact ih e he
      · exact List.mem_singleton.1 he ▸ hd
  | @erase c h file ih => exact fun e he ↦ ih e (List.mem_filter.1 he).1

/-- No two documents are of one file. -/
theorem files_nodup (h : c.Loaded) : c.files.Nodup := by
  induction h with
  | empty => exact List.nodup_nil
  | @insert c d h hd ih => exact nodup_files_insert ih d
  | @erase c h file ih => exact nodup_files_erase ih file

theorem document?_of_mem (h : c.Loaded) {d : Document} (hd : d ∈ c.documents) :
    c.document? d.file = some d :=
  document?_eq_some_of_mem h.files_nodup hd

/-- So the nodes of each form a tree. -/
theorem tree (h : c.Loaded) {file : FileId} {d : Document} (hd : c.document? file = some d) :
    d.Tree :=
  (h.drafted d (List.mem_of_find?_eq_some hd)).tree

end Loaded

/-! ### Nodes of a document as nodes of a catalog -/

/-- The kind of a node. -/
def kind? (c : Catalog) (n : NodeId) : Option Kind := (c.content? n).map Content.kind

theorem kind?_of_content? {n : NodeId} {content : Content Reference}
    (h : c.content? n = some content) : c.kind? n = some content.kind := by
  rw [kind?, h, Option.map_some]

theorem exists_content?_of_kind? {n : NodeId} {k : Kind} (h : c.kind? n = some k) :
    ∃ content, c.content? n = some content ∧ content.kind = k :=
  Option.map_eq_some_iff.1 h

theorem exists_document_of_content? {n : NodeId} {content : Content Reference}
    (h : c.content? n = some content) : ∃ d, c.document? n.file = some d := by
  obtain ⟨node, hnode, -⟩ := Option.map_eq_some_iff.1 h
  obtain ⟨d, hd, -⟩ := Option.bind_eq_some_iff.1 hnode
  exact ⟨d, hd⟩

section Document

variable {n : NodeId} {d : Document} (hd : c.document? n.file = some d)
include hd

/-- What the catalog has at a node is what the document of its file has there. -/
theorem content?_eq : c.content? n = d.content? n.index := by
  simp [content?, node?, Document.content?, hd]

theorem kind?_eq : c.kind? n = d.kind? n.index := by
  rw [kind?, content?_eq hd, Document.kind?]

theorem name?_eq : c.name? n = d.name? n.index := by
  simp [name?, node?, Document.name?, hd]

theorem parent?_eq : c.parent? n = (d.parent? n.index).map n.sibling := by
  simp [parent?, node?, Document.parent?, hd]

/-- Children are nodes of the same document. -/
theorem children_eq : c.children n = (d.children n.index).map n.sibling := by
  simp [children, node?, Document.children, hd]

theorem valueOwner?_eq :
    c.valueOwner? n = ((d.ancestors n.index).find? d.ownsValues).map n.sibling := by
  rw [valueOwner?, hd]
  rfl

end Document

theorem file_of_parent? {n p : NodeId} (h : c.parent? n = some p) : p.file = n.file := by
  obtain ⟨i, -, rfl⟩ := Option.map_eq_some_iff.1 h
  rfl

theorem file_of_mem_children {n p : NodeId} (h : n ∈ c.children p) : n.file = p.file := by
  obtain ⟨i, -, rfl⟩ := List.mem_map.1 h
  rfl

theorem file_of_valueOwner? {n o : NodeId} (h : c.valueOwner? n = some o) : o.file = n.file := by
  rw [valueOwner?] at h
  split at h
  · cases h
  · obtain ⟨i, -, rfl⟩ := Option.map_eq_some_iff.1 h
    rfl

theorem file_of_typeNode? {n t : NodeId} (h : c.typeNode? n = some t) : t.file = n.file := by
  rw [typeNode?] at h
  split at h
  · obtain ⟨i, -, rfl⟩ := Option.map_eq_some_iff.1 h
    rfl
  · cases h

theorem file_of_memberType? {n t : NodeId} {w : MemberType Reference}
    (h : c.memberType? n = some (t, w)) : t.file = n.file :=
  file_of_typeNode? (memberType?_eq_some_iff.1 h).1

theorem type?_eq_getElem? (c : Catalog) (n : NodeId) :
    ((c.node? n).bind (·.type?)).map n.sibling = (c.children n)[0]? := by
  cases hnode : c.node? n <;> simp [children, hnode, Node.type?]

/-- The default of a member comes after its type. -/
theorem default?_eq_getElem? (c : Catalog) (n : NodeId) :
    c.default? n = (c.children n)[1]? := by
  cases hnode : c.node? n <;> simp [children, default?, hnode, Node.default?]

/-- An assignment has only its value below it. -/
theorem assigned?_eq_getElem? (c : Catalog) (n : NodeId) :
    c.assigned? n = (c.children n)[0]? := by
  cases hnode : c.node? n <;> simp [children, assigned?, hnode, Node.value?]

theorem exists_member_of_memberType? {n t : NodeId} {w : MemberType Reference}
    (h : c.memberType? n = some (t, w)) : ∃ m, c.content? n = some (.member m) := by
  have ht := (memberType?_eq_some_iff.1 h).1
  rw [typeNode?] at ht
  split at ht
  · rename_i m hm
    exact ⟨m, hm⟩
  · cases ht

theorem mem_namedChildren_iff {n p : NodeId} {name : String} :
    (name, n) ∈ c.namedChildren p ↔ n ∈ c.children p ∧ c.name? n = some name := by
  constructor
  · intro h
    obtain ⟨child, hchild, h⟩ := List.mem_filterMap.1 h
    obtain ⟨name', hname, heq⟩ := Option.map_eq_some_iff.1 h
    rw [Prod.mk.injEq] at heq
    obtain ⟨rfl, rfl⟩ := heq
    exact ⟨hchild, hname⟩
  · rintro ⟨hchild, hname⟩
    exact List.mem_filterMap.2 ⟨n, hchild, by rw [hname, Option.map_some]⟩

/-! ### The laws of the tree, node by node -/

namespace Loaded

variable {n p : NodeId}

/-- To be a child of a node and to have it as a parent is the same. -/
theorem mem_children_iff (h : c.Loaded) : n ∈ c.children p ↔ c.parent? n = some p := by
  constructor
  · intro hn
    have hfile := file_of_mem_children hn
    cases hd : c.document? p.file with
    | none =>
      rw [children, node?, hd] at hn
      cases hn
    | some d =>
      rw [children_eq hd, List.mem_map] at hn
      obtain ⟨i, hi, rfl⟩ := hn
      have hi : d.parent? i = some p.index := (h.tree hd).mem_children_iff.1 hi
      rw [parent?_eq (n := p.sibling i) hd, NodeId.index_sibling, hi]
      rfl
  · intro hn
    obtain ⟨i, hi, rfl⟩ := Option.map_eq_some_iff.1 hn
    obtain ⟨node, hnode, hi⟩ := Option.bind_eq_some_iff.1 hi
    obtain ⟨d, hd, hnode⟩ := Option.bind_eq_some_iff.1 hnode
    have hparent : d.parent? n.index = some i := by rw [Document.parent?, hnode]; exact hi
    rw [children_eq (n := n.sibling i) hd]
    exact List.mem_map.2 ⟨n.index, (h.tree hd).mem_children_iff.2 hparent, rfl⟩

/-- A node has each of its children once. -/
theorem children_nodup (h : c.Loaded) (p : NodeId) : (c.children p).Nodup := by
  cases hd : c.document? p.file with
  | none => simp [children, node?, hd]
  | some d =>
    rw [children_eq hd]
    exact ((h.tree hd).children_nodup p.index).map fun i j hij ↦ congrArg NodeId.index hij

/-- The children of a node are of the kinds that its content asks for. -/
theorem admits (h : c.Loaded) {k : Kind} (hk : c.kind? n = some k) :
    ∃ ks : List Kind, (c.children n).map c.kind? = ks.map some ∧ k.Admits ks := by
  obtain ⟨content, hcontent, -⟩ := exists_content?_of_kind? hk
  obtain ⟨d, hd⟩ := exists_document_of_content? hcontent
  rw [kind?_eq hd] at hk
  obtain ⟨ks, hks, hadmits⟩ := (h.tree hd).admits hk
  refine ⟨ks, ?_, hadmits⟩
  rw [← hks, children_eq hd, List.map_map]
  exact List.map_congr_left fun i _ ↦ kind?_eq (n := n.sibling i) hd

/-- Every node but a root has a parent, of a kind that can have it as a child. -/
theorem exists_parent (h : c.Loaded) {k : Kind} (hk : c.kind? n = some k) (hroot : k ≠ .root) :
    ∃ p, c.parent? n = some p ∧ ∃ kp ∈ k.parents, c.kind? p = some kp := by
  obtain ⟨content, hcontent, -⟩ := exists_content?_of_kind? hk
  obtain ⟨d, hd⟩ := exists_document_of_content? hcontent
  rw [kind?_eq hd] at hk
  obtain ⟨i, hi⟩ := (h.tree hd).exists_parent_of_kind? hk hroot
  obtain ⟨kp, hmem, hkp⟩ := (h.tree hd).exists_kind_of_parent? hi hk
  refine ⟨n.sibling i, ?_, kp, hmem, ?_⟩
  · rw [parent?_eq hd, hi]
    rfl
  · rw [kind?_eq (n := n.sibling i) hd]
    exact hkp

/-- Where all children of a node are of one kind, so is each. -/
theorem kind?_of_mem_children (h : c.Loaded) {k k' : Kind} (hk : c.kind? p = some k)
    (hall : ∀ ks : List Kind, k.Admits ks → ∀ x ∈ ks, x = k') (hn : n ∈ c.children p) :
    c.kind? n = some k' := by
  obtain ⟨ks, hks, hadmits⟩ := h.admits hk
  have hmem : c.kind? n ∈ ks.map some := hks ▸ List.mem_map_of_mem hn
  obtain ⟨x, hx, heq⟩ := List.mem_map.1 hmem
  rw [← heq, hall ks hadmits x hx]

/-- The children of an entity are its members. -/
theorem member_of_mem_children (h : c.Loaded) {name : String} {id : Option String}
    (hp : c.content? p = some (.entity name id)) (hn : n ∈ c.children p) :
    ∃ m, c.content? n = some (.member m) := by
  obtain ⟨content, hcontent, hk⟩ := exists_content?_of_kind?
    (h.kind?_of_mem_children (kind?_of_content? hp) (fun _ hks ↦ hks) hn)
  cases content <;> first | exact ⟨_, hcontent⟩ | cases hk

/-- The children of an enumeration are its literals. -/
theorem literal_of_mem_children (h : c.Loaded) {name : String}
    (hp : c.content? p = some (.enumeration name)) (hn : n ∈ c.children p) :
    ∃ name, c.content? n = some (.literal name) := by
  obtain ⟨content, hcontent, hk⟩ := exists_content?_of_kind?
    (h.kind?_of_mem_children (kind?_of_content? hp) (fun _ hks ↦ hks) hn)
  cases content <;> first | exact ⟨_, hcontent⟩ | cases hk

/-- The children of an instance are its assignments. -/
theorem assignment_of_mem_children (h : c.Loaded) {name : String} {r : Reference}
    (hp : c.content? p = some (.instantiation name r)) (hn : n ∈ c.children p) :
    ∃ r, c.content? n = some (.assignment r) := by
  obtain ⟨content, hcontent, hk⟩ := exists_content?_of_kind?
    (h.kind?_of_mem_children (kind?_of_content? hp) (fun _ hks ↦ hks) hn)
  cases content <;> first | exact ⟨_, hcontent⟩ | cases hk

/-- The elements of an array are scalars. -/
theorem value_of_mem_children (h : c.Loaded) (hp : c.content? p = some .array)
    (hn : n ∈ c.children p) : ∃ v, c.content? n = some (.value v) := by
  obtain ⟨content, hcontent, hk⟩ := exists_content?_of_kind?
    (h.kind?_of_mem_children (kind?_of_content? hp) (fun _ hks ↦ hks) hn)
  cases content <;> first | exact ⟨_, hcontent⟩ | cases hk

/-- Where all parents of a kind are of one kind, so is the parent of a node. -/
theorem exists_parent_of_parents_eq (h : c.Loaded) {k kp : Kind} (hk : c.kind? n = some k)
    (hparents : k.parents = [kp]) :
    ∃ p content, c.parent? n = some p ∧ c.content? p = some content ∧ content.kind = kp := by
  have hroot : k ≠ .root := by
    rintro rfl
    cases hparents
  obtain ⟨p, hp, kp', hmem, hkp⟩ := h.exists_parent hk hroot
  rw [hparents, List.mem_singleton] at hmem
  obtain ⟨content, hcontent, hkind⟩ := exists_content?_of_kind? hkp
  exact ⟨p, content, hp, hcontent, hkind.trans hmem⟩

/-- The clause of an imported item. -/
theorem exists_importClause (h : c.Loaded) {r : Reference} {rename : Option String}
    (hn : c.content? n = some (.importItem r rename)) :
    ∃ p r', c.parent? n = some p ∧ c.content? p = some (.importClause r') := by
  obtain ⟨p, content, hp, hcontent, hk⟩ := h.exists_parent_of_parents_eq (kind?_of_content? hn) rfl
  cases content <;> first | exact ⟨p, _, hp, hcontent⟩ | cases hk

/-- The instance of an assignment. -/
theorem exists_instantiation (h : c.Loaded) {r : Reference}
    (hn : c.content? n = some (.assignment r)) :
    ∃ p name r', c.parent? n = some p ∧ c.content? p = some (.instantiation name r') := by
  obtain ⟨p, content, hp, hcontent, hk⟩ := h.exists_parent_of_parents_eq (kind?_of_content? hn) rfl
  cases content <;> first | exact ⟨p, _, _, hp, hcontent⟩ | cases hk

/-- The enumeration of a literal. -/
theorem exists_enumeration (h : c.Loaded) {name : String}
    (hn : c.content? n = some (.literal name)) :
    ∃ p name', c.parent? n = some p ∧ c.content? p = some (.enumeration name') := by
  obtain ⟨p, content, hp, hcontent, hk⟩ := h.exists_parent_of_parents_eq (kind?_of_content? hn) rfl
  cases content <;> first | exact ⟨p, _, hp, hcontent⟩ | cases hk

/-! ### Types, values and their owners -/

theorem kind?_getElem? {ks : List Kind} (hks : (c.children n).map c.kind? = ks.map some) (i : Nat) :
    (c.children n)[i]?.map c.kind? = ks[i]?.map some := by
  rw [← List.getElem?_map, hks, List.getElem?_map]

/-- A member has a type, which stands below it. -/
theorem exists_memberType (h : c.Loaded) {m : Member} (hn : c.content? n = some (.member m)) :
    ∃ t w, c.memberType? n = some (t, w) ∧ c.parent? t = some n := by
  obtain ⟨ks, hks, hadmits⟩ := h.admits (kind?_of_content? hn)
  have hfirst : ks[0]? = some .type := by
    rcases hadmits with rfl | ⟨k, -, rfl⟩ <;> rfl
  have hkind := kind?_getElem? hks 0
  rw [hfirst, Option.map_some] at hkind
  obtain ⟨t, ht, hkt⟩ := Option.map_eq_some_iff.1 hkind
  obtain ⟨content, hcontent, hk⟩ := exists_content?_of_kind? hkt
  have htype : ∃ w, content = .type w := by
    cases content <;> first | exact ⟨_, rfl⟩ | cases hk
  obtain ⟨w, rfl⟩ := htype
  refine ⟨t, w, ?_, h.mem_children_iff.1 (List.mem_of_getElem? ht)⟩
  refine memberType?_eq_some_iff.2 ⟨?_, hcontent⟩
  rw [typeNode?, hn]
  dsimp only
  rw [type?_eq_getElem?, ht]

/-- The node of the type of a member holds a type. -/
theorem exists_type_of_typeNode? (h : c.Loaded) {t : NodeId} (ht : c.typeNode? n = some t) :
    ∃ w, c.content? t = some (.type w) := by
  have hmember : ∃ m, c.content? n = some (.member m) := by
    rw [typeNode?] at ht
    split at ht
    · exact ⟨_, ‹_›⟩
    · cases ht
  obtain ⟨m, hn⟩ := hmember
  obtain ⟨t', w, hw, -⟩ := h.exists_memberType hn
  obtain ⟨ht', hcontent⟩ := memberType?_eq_some_iff.1 hw
  obtain rfl : t' = t := Option.some.inj (ht'.symm.trans ht)
  exact ⟨w, hcontent⟩

/-- The default of a member is a value below it. -/
theorem isValue_of_default? (h : c.Loaded) {m : Member} {v : NodeId}
    (hn : c.content? n = some (.member m)) (hv : c.default? n = some v) :
    c.parent? v = some n ∧ ∃ k, c.kind? v = some k ∧ k.isValue = true := by
  rw [default?_eq_getElem?] at hv
  obtain ⟨ks, hks, hadmits⟩ := h.admits (kind?_of_content? hn)
  have hkind := kind?_getElem? hks 1
  rw [hv, Option.map_some] at hkind
  refine ⟨h.mem_children_iff.1 (List.mem_of_getElem? hv), ?_⟩
  rcases hadmits with rfl | ⟨k, hvalue, rfl⟩
  · cases hkind
  · exact ⟨k, Option.some.inj hkind, hvalue⟩

/-- An assignment has a value, which stands below it. -/
theorem exists_assigned (h : c.Loaded) {r : Reference}
    (hn : c.content? n = some (.assignment r)) :
    ∃ v k, c.assigned? n = some v ∧ c.parent? v = some n ∧ c.kind? v = some k ∧
      k.isValue = true := by
  obtain ⟨ks, hks, k, hvalue, rfl⟩ := h.admits (kind?_of_content? hn)
  have hkind := kind?_getElem? hks 0
  rw [List.getElem?_cons_zero, Option.map_some] at hkind
  obtain ⟨v, hv, hk⟩ := Option.map_eq_some_iff.1 hkind
  refine ⟨v, k, ?_, h.mem_children_iff.1 (List.mem_of_getElem? hv), hk, hvalue⟩
  rw [assigned?_eq_getElem?, hv]

/-- Every value belongs to a member or to an assignment. -/
theorem exists_valueOwner (h : c.Loaded) {k : Kind} (hk : c.kind? n = some k)
    (hvalue : k.isValue = true) :
    ∃ o, c.valueOwner? n = some o ∧ o.file = n.file ∧
      ((∃ m, c.content? o = some (.member m)) ∨ ∃ r, c.content? o = some (.assignment r)) := by
  obtain ⟨content, hcontent, -⟩ := exists_content?_of_kind? hk
  obtain ⟨d, hd⟩ := exists_document_of_content? hcontent
  rw [kind?_eq hd] at hk
  obtain ⟨i, hi, howns⟩ := (h.tree hd).exists_owner hk hvalue
  refine ⟨n.sibling i, ?_, rfl, ?_⟩
  · rw [valueOwner?_eq hd, hi]
    rfl
  · rw [content?_eq (n := n.sibling i) hd, NodeId.index_sibling]
    rw [Document.ownsValues] at howns
    split at howns
    · rename_i m hm
      exact .inl ⟨m, hm⟩
    · rename_i r hr
      exact .inr ⟨r, hr⟩
    · cases howns

/-- What stands below a member or an assignment belongs to it. -/
theorem valueOwner?_of_parent (h : c.Loaded) {k : Kind} (hn : c.parent? n = some p)
    (hk : c.kind? p = some k) (howns : k = .member ∨ k = .assignment) :
    c.valueOwner? n = some p := by
  obtain ⟨content, hcontent, -⟩ := exists_content?_of_kind? hk
  obtain ⟨d, hd⟩ := exists_document_of_content? hcontent
  have hd' : c.document? n.file = some d := file_of_parent? hn ▸ hd
  rw [parent?_eq hd'] at hn
  obtain ⟨i, hi, rfl⟩ := Option.map_eq_some_iff.1 hn
  have howner : d.ownsValues i = true := (Document.ownsValues_of_kind? (kind?_eq hd ▸ hk)).2 howns
  rw [valueOwner?_eq hd', (h.tree hd').find?_ancestors_of_owner hi howner]
  rfl

/-- An element of an array belongs to what the array belongs to. -/
theorem valueOwner?_of_array (h : c.Loaded) (hn : c.parent? n = some p)
    (hp : c.content? p = some .array) : c.valueOwner? n = c.valueOwner? p := by
  obtain ⟨d, hd⟩ := exists_document_of_content? hp
  have hd' : c.document? n.file = some d := file_of_parent? hn ▸ hd
  rw [parent?_eq hd'] at hn
  obtain ⟨i, hi, rfl⟩ := Option.map_eq_some_iff.1 hn
  have howns : d.ownsValues i = false := by
    rw [content?_eq hd] at hp
    rw [Document.ownsValues, show d.content? i = some .array from hp]
  rw [valueOwner?_eq hd', valueOwner?_eq hd, (h.tree hd').find?_ancestors_of_not_owner hi howns]
  rfl

end Loaded

end Catalog

end Schemata
