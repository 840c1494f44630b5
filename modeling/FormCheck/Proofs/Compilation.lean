import FormCheck.Validator
import Mathlib.Data.List.Basic
import Mathlib.Data.List.Induction

/-!
# Compiled fields

Compiling goes through the fields of a form once and puts each into the list of those compiled so
far, in the place of a field of its name if there is one. So a name stands where it occurred first,
with the label and the rules of the field that has it last. Looking a name up in the compiled list
from the front finds the same as looking it up in the form from the back.
-/
namespace FormCheck

/-- No field behind this one has its name. -/
def IsLast (fields : List FieldDescriptor) (field : FieldDescriptor) : Prop :=
  ∃ before after, fields = before ++ field :: after ∧ ∀ f ∈ after, f.name ≠ field.name

namespace FormSchema

/-- Searching from the back finds the last field of a name. -/
theorem field?_eq_some_iff (schema : FormSchema) (name : String) (field : FieldDescriptor) :
    schema.field? name = some field ↔ field.name = name ∧ IsLast schema.fields field := by
  simp only [field?, find?_reverse_eq_some_iff, decide_eq_true_eq, decide_eq_false_iff_not]
  constructor
  · rintro ⟨rfl, hlast⟩
    exact ⟨rfl, hlast⟩
  · rintro ⟨rfl, hlast⟩
    exact ⟨rfl, hlast⟩

theorem field?_eq_none_iff (schema : FormSchema) (name : String) :
    schema.field? name = none ↔ ∀ field ∈ schema.fields, field.name ≠ name := by
  simp [field?]

end FormSchema

namespace Validator

/-- The names of compiled fields in order. -/
def names (l : List CompiledField) : List String := l.map CompiledField.name

@[simp] theorem names_nil : names [] = [] := rfl

@[simp] theorem names_cons (entry : CompiledField) (l : List CompiledField) :
    names (entry :: l) = entry.name :: names l := rfl

@[simp] theorem names_append (l m : List CompiledField) : names (l ++ m) = names l ++ names m :=
  List.map_append

theorem name_mem_names {entry : CompiledField} {l : List CompiledField} (h : entry ∈ l) :
    entry.name ∈ names l :=
  List.mem_map_of_mem h

theorem find?_eq_none_of_notMem {l : List CompiledField} {name : String} (h : name ∉ names l) :
    l.find? (fun f => f.name = name) = none := by
  rw [List.find?_eq_none]
  intro f hf heq
  have heq : f.name = name := by simpa using heq
  exact h (heq ▸ name_mem_names hf)

/-- A new name comes last, a known one leaves the names as they are. -/
theorem names_replace (entry : CompiledField) (l : List CompiledField) :
    names (replace entry l) =
      if entry.name ∈ names l then names l else names l ++ [entry.name] := by
  induction l with
  | nil => rfl
  | cons f rest ih =>
    by_cases h : f.name = entry.name
    · simp [replace, h]
    · have hmem : entry.name ∈ names (f :: rest) ↔ entry.name ∈ names rest := by
        rw [names_cons, List.mem_cons, or_iff_right (Ne.symm h)]
      rw [replace, if_neg h, names_cons, ih]
      by_cases hentry : entry.name ∈ names rest
      · rw [if_pos hentry, if_pos (hmem.mpr hentry), names_cons]
      · rw [if_neg hentry, if_neg (mt hmem.mp hentry), names_cons, List.cons_append]

theorem find?_replace_self (entry : CompiledField) (l : List CompiledField) :
    (replace entry l).find? (fun f => f.name = entry.name) = some entry := by
  induction l with
  | nil => simp [replace]
  | cons f rest ih =>
    by_cases h : f.name = entry.name
    · simp [replace, h]
    · simp [replace, h, ih]

theorem find?_replace_of_ne (entry : CompiledField) (l : List CompiledField) {name : String}
    (hne : entry.name ≠ name) :
    (replace entry l).find? (fun f => f.name = name) = l.find? (fun f => f.name = name) := by
  induction l with
  | nil => simp [replace, hne]
  | cons f rest ih =>
    by_cases h : f.name = entry.name
    · simp [replace, h, hne]
    · rw [replace, if_neg h, List.find?_cons, List.find?_cons, ih]

/-- Puts the entries into an empty list, one after the other. -/
def collapse (entries : List CompiledField) : List CompiledField :=
  entries.foldl (fun compiled entry => replace entry compiled) []

@[simp] theorem collapse_nil : collapse [] = [] := rfl

@[simp] theorem collapse_append_singleton (entries : List CompiledField) (entry : CompiledField) :
    collapse (entries ++ [entry]) = replace entry (collapse entries) := by
  simp [collapse]

theorem mem_names_collapse (entries : List CompiledField) (name : String) :
    name ∈ names (collapse entries) ↔ name ∈ names entries := by
  induction entries using List.reverseRecOn with
  | nil => rfl
  | append_singleton entries entry ih =>
    rw [collapse_append_singleton, names_replace, names_append, List.mem_append, ← ih]
    split_ifs with h
    · have hself : name ∈ names [entry] → name ∈ names (collapse entries) := by
        intro hname
        rwa [List.mem_singleton.mp hname]
      exact (or_iff_left_of_imp hself).symm
    · exact List.mem_append

/-- The names left are in the order of their first occurrences. -/
theorem pairwise_idxOf_collapse (entries : List CompiledField) :
    (names (collapse entries)).Pairwise fun a b =>
      (names entries).idxOf a < (names entries).idxOf b := by
  induction entries using List.reverseRecOn with
  | nil => exact List.Pairwise.nil
  | append_singleton entries entry ih =>
    -- One more entry does not move the first occurrence of a name that is there already.
    have hidx : ∀ name ∈ names (collapse entries),
        (names (entries ++ [entry])).idxOf name = (names entries).idxOf name := by
      intro name hname
      rw [names_append]
      exact List.idxOf_append_of_mem ((mem_names_collapse entries name).mp hname)
    have hold : (names (collapse entries)).Pairwise fun a b =>
        (names (entries ++ [entry])).idxOf a < (names (entries ++ [entry])).idxOf b := by
      refine ih.imp_of_mem ?_
      intro a b ha hb hab
      rw [hidx a ha, hidx b hb]
      exact hab
    rw [collapse_append_singleton, names_replace]
    split_ifs with h
    · exact hold
    · refine List.pairwise_append.mpr ⟨hold, List.pairwise_singleton _ _, ?_⟩
      intro a ha b hb
      obtain rfl := List.mem_singleton.mp hb
      have hnew : entry.name ∉ names entries := by rwa [← mem_names_collapse]
      have hlt := List.idxOf_lt_length_of_mem ((mem_names_collapse entries a).mp ha)
      rw [hidx a ha, names_append, List.idxOf_append_of_notMem hnew]
      omega

theorem nodup_names_collapse (entries : List CompiledField) :
    (names (collapse entries)).Nodup := by
  refine (pairwise_idxOf_collapse entries).imp ?_
  rintro a b hab rfl
  exact Nat.lt_irrefl _ hab

/-- Of the entries of one name the last is found. -/
theorem find?_collapse (entries : List CompiledField) (name : String) :
    (collapse entries).find? (fun f => f.name = name) =
      entries.reverse.find? (fun f => f.name = name) := by
  induction entries using List.reverseRecOn with
  | nil => rfl
  | append_singleton entries entry ih =>
    rw [collapse_append_singleton, List.reverse_append, List.reverse_singleton]
    by_cases h : entry.name = name
    · subst h
      simp [find?_replace_self]
    · rw [find?_replace_of_ne _ _ h, ih]
      simp [h]

/-- With distinct names every entry is found under its name. -/
theorem find?_name_of_mem {l : List CompiledField} (hl : (names l).Nodup) {entry : CompiledField}
    (h : entry ∈ l) : l.find? (fun f => f.name = entry.name) = some entry := by
  induction l with
  | nil => exact absurd h List.not_mem_nil
  | cons f rest ih =>
    rw [names_cons, List.nodup_cons] at hl
    rcases List.mem_cons.mp h with rfl | hmem
    · simp
    · have hne : f.name ≠ entry.name := by
        intro heq
        exact hl.1 (heq ▸ name_mem_names hmem)
      simp [hne, ih hl.2 hmem]

/-- What a form compiles to. -/
theorem value_compile (fields : List FieldDescriptor) (email : EmailPattern) :
    (compile fields email).value =
      ⟨collapse (fields.map fun field => ⟨field.name, field.label, field.rules.value⟩), email⟩ := by
  have h := Traced.value_foldlM add fields []
  simp only [value_add, CompiledField.value_ofDescriptor] at h
  simp only [compile, Traced.value_bind, Traced.value_pure, h, collapse, List.foldl_map]

/-- Compiling sees the name, the label and the parsed rules of a field and nothing else of it. -/
theorem value_compile_map (f : FieldDescriptor → FieldDescriptor)
    (hname : ∀ field, (f field).name = field.name) (hlabel : ∀ field, (f field).label = field.label)
    (hrules : ∀ field, (f field).rules.value = field.rules.value) (fields : List FieldDescriptor)
    (email : EmailPattern) :
    (compile (fields.map f) email).value = (compile fields email).value := by
  rw [value_compile, value_compile, List.map_map]
  simp only [Function.comp_def, hname, hlabel, hrules]

theorem nodup_names_compile (fields : List FieldDescriptor) (email : EmailPattern) :
    (names (compile fields email).value.fields).Nodup := by
  rw [value_compile]
  exact nodup_names_collapse _

/-- The names of a form are those of its compiled fields. -/
theorem mem_names_compile (fields : List FieldDescriptor) (email : EmailPattern) (name : String) :
    name ∈ names (compile fields email).value.fields ↔
      name ∈ fields.map FieldDescriptor.name := by
  rw [value_compile, mem_names_collapse, names, List.map_map]
  rfl

/-- A name is looked up in the compiled form as in the form itself. -/
theorem field?_compile (fields : List FieldDescriptor) (email : EmailPattern) (name : String) :
    (compile fields email).value.field? name =
      (FormSchema.field? ⟨fields⟩ name).map fun field =>
        ⟨field.name, field.label, field.rules.value⟩ := by
  rw [value_compile, field?, find?_collapse, ← List.map_reverse, List.find?_map]
  rfl

/-- Every compiled field stems from the last field of its name. -/
theorem exists_isLast_of_mem_compile {fields : List FieldDescriptor} {email : EmailPattern}
    {entry : CompiledField} (h : entry ∈ (compile fields email).value.fields) :
    ∃ field, IsLast fields field ∧ entry = ⟨field.name, field.label, field.rules.value⟩ := by
  have hfind : (compile fields email).value.field? entry.name = some entry :=
    find?_name_of_mem (nodup_names_compile fields email) h
  rw [field?_compile] at hfind
  obtain ⟨field, hfield, heq⟩ := Option.map_eq_some_iff.mp hfind
  exact ⟨field, ((FormSchema.field?_eq_some_iff _ _ _).mp hfield).2, heq.symm⟩

/-- Of several fields with one name the first gives the place and the last the label and the rules,
and nothing else is left of them. So a form and its compiled fields know the same names and give
the same label and rules for each. -/
theorem compile_first_place_last_content (fields : List FieldDescriptor) (email : EmailPattern) :
    let compiled := (compile fields email).value
    let declared := fields.map FieldDescriptor.name
    (names compiled.fields).Nodup ∧
    (∀ name, name ∈ names compiled.fields ↔ name ∈ declared) ∧
    (names compiled.fields).Pairwise (fun a b => declared.idxOf a < declared.idxOf b) ∧
    (∀ entry ∈ compiled.fields, ∃ field, IsLast fields field ∧
      entry.name = field.name ∧ entry.label = field.label ∧ entry.rules = field.rules.value) ∧
    ∀ name, compiled.field? name = (FormSchema.field? ⟨fields⟩ name).map fun field =>
      ⟨field.name, field.label, field.rules.value⟩ := by
  intro compiled declared
  let entries : List CompiledField :=
    fields.map fun field => ⟨field.name, field.label, field.rules.value⟩
  have hcompiled : compiled.fields = collapse entries := by
    simp only [compiled, value_compile, entries]
  have hdeclared : declared = names entries := by
    simp [declared, entries, names, Function.comp_def]
  refine ⟨nodup_names_compile fields email, ?_, ?_, ?_, field?_compile fields email⟩
  · intro name
    rw [hcompiled, hdeclared]
    exact mem_names_collapse entries name
  · rw [hcompiled, hdeclared]
    exact pairwise_idxOf_collapse entries
  · intro entry hentry
    obtain ⟨field, hlast, rfl⟩ := exists_isLast_of_mem_compile hentry
    exact ⟨field, hlast, rfl, rfl, rfl⟩

/-- A form with two fields of one name. -/
def nameTwice : List FieldDescriptor := [
  { name := "a", label := "First", rule := some "required" },
  { name := "b", label := "B", rule := some "email" },
  { name := "a", label := "Second", rule := some "min:5|required" }]

theorem compile_nameTwice :
    let entry : CompiledField := ⟨"a", "Second", ⟨[.min 5, .required]⟩⟩
    (compile nameTwice .html).value.fields = [entry, ⟨"b", "B", ⟨[.email]⟩⟩] ∧
    entry ∈ (compile nameTwice .html).value.fields ∧
    ∃ field, IsLast nameTwice field ∧
      entry.name = field.name ∧ entry.label = field.label ∧ entry.rules = field.rules.value := by
  intro entry
  have hmem : entry ∈ (compile nameTwice .html).value.fields := by decide +kernel
  obtain ⟨-, -, -, hlast, -⟩ := compile_first_place_last_content nameTwice .html
  exact ⟨by decide +kernel, hmem, hlast entry hmem⟩

end Validator
end FormCheck
