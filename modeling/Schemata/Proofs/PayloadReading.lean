import Mathlib.Data.List.Perm.Basic
import Schemata.Diagnostic.Basic
import Schemata.Proofs.Keys

/-!
# Payloads are read back

A payload is written as an object without a tag, with the code of its finding as one more field. As
long as no key comes twice, a field is what stands under its key (`Json.field?_keyed`), so neither
the order of the fields nor a field that is not asked for matters. The two kinds of payload have no
key in common, and the code is under a key of neither. So an object is read as one kind and not as
the other, and reading it gives the payload for which it was written (`Payload.Reads`).
-/

namespace Schemata

/-! ### Objects -/

namespace Json

/-- Fields as a reader has them. -/
def keyed (fields : List (String × Json)) : List (Option String × Json) :=
  fields.map fun f ↦ (some f.1, f.2)

/-- Whether two trees are objects with the same fields, in whichever order. -/
def SameObject (j j' : Json) : Prop :=
  ∃ fields fields', j = .ofFields fields ∧ j' = .ofFields fields' ∧ fields.Perm fields'

variable {fields fields' : List (String × Json)}

theorem ofFields_eq (fields : List (String × Json)) : ofFields fields = .object (keyed fields) :=
  rfl

/-- No fields are lost when they become an object. -/
theorem ofFields_injective : Function.Injective ofFields := by
  intro fields fields' h
  have hinjective : Function.Injective fun f : String × Json ↦ (some f.1, f.2) := by
    rintro ⟨k, v⟩ ⟨k', v'⟩ heq
    simpa using heq
  exact List.map_injective_iff.2 hinjective (Json.object.inj h)

/-- Where no key comes twice, a key has one value at most. -/
theorem valuesAt_keyed (h : (fields.map (·.1)).Nodup) (key : String) :
    valuesAt key (keyed fields) = (fields.lookup key).toList := by
  induction fields with
  | nil => rfl
  | cons f fields ih =>
    obtain ⟨k, v⟩ := f
    obtain ⟨hk, hfields⟩ := List.nodup_cons.1 h
    rw [keyed, List.map_cons, valuesAt_cons, ← keyed, ih hfields, List.lookup_cons]
    by_cases heq : k = key
    · subst heq
      have hnone : fields.lookup k = none := lookup_eq_none_iff_not_mem.2 hk
      simp [hnone]
    · rw [if_neg heq, beq_false_of_ne (Ne.symm heq)]

/-- Where no key comes twice, a field is what stands under its key. -/
theorem field?_keyed (h : (fields.map (·.1)).Nodup) (key : String) :
    field? key (keyed fields) = fields.lookup key := by
  rw [field?, valuesAt_keyed h]
  cases fields.lookup key <;> rfl

end Json

open Json

/-! ### Kinds of payload -/

namespace Payload

/-- The fields of the object of a payload: its own, and the code of its finding. -/
def coded (p : Payload) (code : String) : List (String × Json) := p.fields ++ [("code", .text code)]

variable {fields : List (String × Json)} {p : Payload} {code : String}

theorem toJson_eq (p : Payload) (code : String) : p.toJson code = .ofFields (p.coded code) := rfl

/-- No key comes twice, the one of the code included. -/
theorem nodup_keys_coded (p : Payload) (code : String) : ((p.coded code).map (·.1)).Nodup := by
  cases p with
  | linking f =>
    show ["expectedKind", "refText", "containerKind", "property", "code"].Nodup
    decide
  | missingMembers instanceName names =>
    show ["instanceName", "missingMemberNames", "code"].Nodup
    decide

theorem lookup_code_coded (p : Payload) (code : String) :
    (p.coded code).lookup "code" = some (.text code) :=
  (lookup_eq_some_iff_mem (p.nodup_keys_coded code)).2 (List.mem_append_right _ (by simp))

/-- A text is read from the field of its key. -/
theorem textField?_of_mem (h : (fields.map (·.1)).Nodup) {key s : String}
    (hmem : (key, Json.text s) ∈ fields) : textField? key (keyed fields) = some s := by
  rw [textField?, field?_keyed h, (lookup_eq_some_iff_mem h).2 hmem]
  rfl

/-- And not read at all where there is no such field. -/
theorem textField?_of_not_mem (h : (fields.map (·.1)).Nodup) {key : String}
    (hmem : key ∉ fields.map (·.1)) : textField? key (keyed fields) = none := by
  rw [textField?, field?_keyed h, lookup_eq_none_iff_not_mem.2 hmem]
  rfl

/-- A linking failure is read from its fields, whatever other fields there are. -/
theorem linking?_of_subset (h : (fields.map (·.1)).Nodup) {f : LinkingFailure}
    (hf : (linking f).fields ⊆ fields) : linking? (keyed fields) = some (.linking f) := by
  have hkind := textField?_of_mem h (hf (.head _))
  have hreference := textField?_of_mem h (hf (.tail _ (.head _)))
  have hcontainer := textField?_of_mem h (hf (.tail _ (.tail _ (.head _))))
  have hproperty := textField?_of_mem h (hf (.tail _ (.tail _ (.tail _ (.head _)))))
  rw [linking?, hkind, hreference, hcontainer, hproperty]
  rfl

/-- Missing members are read from their fields, whatever other fields there are. -/
theorem missingMembers?_of_subset (h : (fields.map (·.1)).Nodup) {instanceName : String}
    {names : List String} (hp : (missingMembers instanceName names).fields ⊆ fields) :
    missingMembers? (keyed fields) = some (.missingMembers instanceName names) := by
  have hname := textField?_of_mem h (hp (.head _))
  have hnames : field? "missingMemberNames" (keyed fields) = some (.array (names.map .text)) := by
    rw [field?_keyed h]
    exact (lookup_eq_some_iff_mem h).2 (hp (.tail _ (.head _)))
  rw [missingMembers?, hname, hnames]
  show (Json.texts? (.array (names.map .text))).bind _ = _
  rw [texts?_map_text]
  rfl

/-- Missing members are not read as a linking failure, which needs a key that they do not have. -/
theorem linking?_of_not_mem (h : (fields.map (·.1)).Nodup)
    (hmem : "expectedKind" ∉ fields.map (·.1)) : linking? (keyed fields) = none := by
  rw [linking?, textField?_of_not_mem h hmem]
  rfl

/-- And the other way round. -/
theorem missingMembers?_of_not_mem (h : (fields.map (·.1)).Nodup)
    (hmem : "instanceName" ∉ fields.map (·.1)) : missingMembers? (keyed fields) = none := by
  rw [missingMembers?, textField?_of_not_mem h hmem]
  rfl

/-- Whether an object is read as a payload, whichever kind of payload is tried first. -/
def Reads (j : Json) (p : Payload) : Prop :=
  ofJson? j = some p ∧
    ∃ fields, j = .object fields ∧ (missingMembers? fields).or (linking? fields) = some p

/-- The fields of a payload and the code, in any order, are read as the payload. -/
theorem reads_of_perm (h : fields.Perm (p.coded code)) : Reads (.ofFields fields) p := by
  have hkeys := h.map (·.1)
  have hnodup : (fields.map (·.1)).Nodup := hkeys.nodup_iff.2 (p.nodup_keys_coded code)
  have hsubset : p.fields ⊆ fields := fun f hf ↦ h.mem_iff.2 (List.mem_append_left _ hf)
  rw [ofFields_eq, Reads, ofJson?]
  cases p with
  | linking f =>
    have hother : "instanceName" ∉ fields.map (·.1) := by
      rw [hkeys.mem_iff]
      show "instanceName" ∉ ["expectedKind", "refText", "containerKind", "property", "code"]
      decide
    have hlinking := linking?_of_subset hnodup hsubset
    have hmissing := missingMembers?_of_not_mem hnodup hother
    exact ⟨by rw [hlinking]; rfl, _, rfl, by rw [hlinking, hmissing]; rfl⟩
  | missingMembers instanceName names =>
    have hother : "expectedKind" ∉ fields.map (·.1) := by
      rw [hkeys.mem_iff]
      show "expectedKind" ∉ ["instanceName", "missingMemberNames", "code"]
      decide
    have hlinking := linking?_of_not_mem hnodup hother
    have hmissing := missingMembers?_of_subset hnodup hsubset
    exact ⟨by rw [hlinking, hmissing]; rfl, _, rfl, by rw [hmissing]; rfl⟩

theorem reads_of_sameObject {j : Json} (h : j.SameObject (p.toJson code)) : Reads j p := by
  obtain ⟨fields, fields', rfl, hfields', hperm⟩ := h
  rw [toJson_eq, ofFields_injective.eq_iff] at hfields'
  exact reads_of_perm (hfields' ▸ hperm)

/-- Objects with the same fields have the same code. -/
theorem code_eq_of_sameObject {q : Payload} {code' : String}
    (h : (q.toJson code').SameObject (p.toJson code)) : code' = code := by
  obtain ⟨fields, fields', hfields, hfields', hperm⟩ := h
  rw [toJson_eq, ofFields_injective.eq_iff] at hfields hfields'
  subst hfields hfields'
  -- the code that stands in the one object stands in the other, where no key comes twice
  have hmem : ("code", Json.text code') ∈ p.coded code :=
    hperm.mem_iff.1 (List.mem_append_right _ (List.mem_singleton.2 rfl))
  have hlookup := (lookup_eq_some_iff_mem (p.nodup_keys_coded code)).2 hmem
  rw [lookup_code_coded] at hlookup
  simpa [Json.text] using hlookup.symm

/-- **A payload is read back from its object.** The object has each key once, and the code under its
own. From it, and from any object with the same fields, exactly the payload is read, whichever kind
is tried first. So no two payloads, or codes, have the same object. -/
theorem reads_toJson (p : Payload) (code : String) :
    (∃ fields, p.toJson code = .ofFields fields ∧ (fields.map (·.1)).Nodup ∧
        fields.lookup "code" = some (.text code)) ∧
      Reads (p.toJson code) p ∧
      (∀ j : Json, j.SameObject (p.toJson code) → Reads j p) ∧
      ∀ (q : Payload) (code' : String), (q.toJson code').SameObject (p.toJson code) →
        q = p ∧ code' = code := by
  have hself (q : Payload) (code' : String) : (q.toJson code').SameObject (q.toJson code') :=
    ⟨_, _, rfl, rfl, .refl _⟩
  refine ⟨⟨_, rfl, p.nodup_keys_coded code, p.lookup_code_coded code⟩,
    reads_of_sameObject (hself p code), fun j hj ↦ reads_of_sameObject hj,
    fun q code' hq ↦ ⟨?_, code_eq_of_sameObject hq⟩⟩
  have hown : ofJson? (q.toJson code') = some q := (reads_of_sameObject (hself q code')).1
  have hother : ofJson? (q.toJson code') = some p := (reads_of_sameObject hq).1
  exact Option.some.inj (hown.symm.trans hother)

/-- Missing members of an instance with the name of a key, one of them with another key's. -/
def namedLikeKeys : Payload := .missingMembers "code" ["refText", ""]

/-- The same object with its fields in the order of the keys. -/
theorem reads_toJson_ofNamedLikeKeys :
    let sorted : Json := .ofFields [("code", .text "missing-members"),
      ("instanceName", .text "code"), ("missingMemberNames", .array [.text "refText", .text ""])]
    sorted.SameObject (namedLikeKeys.toJson "missing-members") ∧ Reads sorted namedLikeKeys ∧
      ∀ q code', q.toJson code' = sorted → q = namedLikeKeys ∧ code' = "missing-members" := by
  intro sorted
  have hperm (a b c : String × Json) : [a, b, c].Perm [b, c, a] :=
    @List.perm_append_comm _ [a] [b, c]
  have hsame : sorted.SameObject (namedLikeKeys.toJson "missing-members") :=
    ⟨_, _, rfl, rfl, hperm _ _ _⟩
  obtain ⟨-, -, hreads, hunique⟩ := reads_toJson namedLikeKeys "missing-members"
  exact ⟨hsame, hreads sorted hsame, fun q code' hq ↦ hunique q code' (hq ▸ hsame)⟩

end Payload

/-- What a finding tells a tool is read back as its payload. -/
theorem Diagnostic.bind_ofJson?_data? (d : Diagnostic) :
    d.data?.bind Payload.ofJson? = d.payload := by
  cases hp : d.payload with
  | none => rw [data?, hp]; rfl
  | some p =>
    rw [data?, hp]
    exact (Payload.reads_of_perm (.refl (p.coded (d.code.getD "")))).1

end Schemata
