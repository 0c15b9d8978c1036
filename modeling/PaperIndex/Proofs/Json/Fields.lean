import Mathlib.Data.List.Nodup
import PaperIndex.Json.Decode
import PaperIndex.Proofs.Fallible

/-! # What typed data is read from

A type with fields is read from an object by the names of the fields and from an array by their
order. `Parts` says which values a draft gives to the declared fields in either way, and
`readFieldsOf_eq_ok_iff` that these are the ones that are read, just if every field accepts what it
is given (`FieldSpec.Accepts`). The other readers are inverted likewise. -/

namespace PaperIndex.Json

variable {α β : Type}

theorem check_bind_eq_ok_iff {x : Decoded Unit} {f : Unit → Decoded β} {b : β} :
    (x >>= f) = .ok b ↔ x = .ok () ∧ f () = .ok b := by
  rw [bind_eq_ok_iff]
  exact ⟨fun ⟨(), h⟩ => h, fun h => ⟨(), h⟩⟩

/-! ### Simple readers -/

@[simp] theorem liftProblem_eq_ok_iff {x : Except Problem α} {a : α} :
    liftProblem x = .ok a ↔ x = .ok a := by
  cases x <;> simp [liftProblem]

@[simp] theorem atStop_eq_ok_iff {stop : Option Problem} : atStop stop = .ok () ↔ stop = none := by
  cases stop <;> simp [atStop]

theorem unexpected_ne_ok (expected : String) (d : Draft) (a : α) : d.unexpected expected ≠ .ok a := by
  cases d <;> nofun

@[simp] theorem readTextValue_eq_ok_iff {d : Draft} {s : String} :
    readTextValue d = .ok s ↔ d = .string s := by
  cases d <;> simp [readTextValue, unexpected_ne_ok]

/-- **A list** is read from a closed array, item by item. -/
theorem readList_eq_ok_iff {read : Draft → Decoded α} {d : Draft} {as : List α} :
    readList read d = .ok as ↔
      ∃ items, d = .array items none ∧ List.Forall₂ (fun d a => read d = .ok a) items as := by
  cases d with
  | array items stop =>
    rw [readList, bind_eq_ok_iff]
    constructor
    · rintro ⟨as', hread, hstop⟩
      obtain ⟨_, hclosed, has⟩ := bind_eq_ok_iff.1 hstop
      obtain rfl := atStop_eq_ok_iff.1 (liftProblem_eq_ok_iff.1 hclosed)
      obtain rfl := Except.ok.inj has
      exact ⟨items, rfl, mapM_eq_ok_iff.1 hread⟩
    · rintro ⟨items', heq, hall⟩
      obtain ⟨rfl, rfl⟩ := Draft.array.inj heq
      exact ⟨as, mapM_eq_ok_iff.2 hall, rfl⟩
  | _ => simp [readList, unexpected_ne_ok]

/-- **A text** is read if nothing follows what it holds. -/
theorem decodeText_eq_ok_iff {read : Draft → Decoded α} {s : String} {a : α} :
    decodeText read s = .ok a ↔ ∃ d, draftOf s = (d, false) ∧ read d = .ok a := by
  unfold decodeText
  generalize draftOf s = x
  obtain ⟨d, more⟩ := x
  simp only [bind_eq_ok_iff]
  cases more with
  | false => simp [pure, Except.pure]
  | true => simp

/-! ### Parts -/

/-- Fields with keys that denote texts. -/
def draftFields (fields : List (String × Draft)) : List (Option String × Draft) :=
  fields.map fun f => (some f.1, f.2)

/-- The fields that have one of the names. -/
def named (names : List String) (fields : List (String × Draft)) : List (String × Draft) :=
  fields.filter (·.1 ∈ names)

section Named
variable {names : List String} {f : String × Draft} (fields : List (String × Draft))

theorem named_cons_of_mem (h : f.1 ∈ names) : named names (f :: fields) = f :: named names fields :=
  List.filter_cons_of_pos (decide_eq_true h)

theorem named_cons_of_not_mem (h : f.1 ∉ names) :
    named names (f :: fields) = named names fields :=
  List.filter_cons_of_neg fun hmem => h (of_decide_eq_true hmem)

end Named

/-- **The parts of a draft** under declared names, first `names` and then `spare`. An object gives
every declared field at most once, and its other fields only have to be well formed; an array gives
its items in the order of the names, and need not go on to the spare ones. -/
inductive Parts (names spare : List String) : Draft → List (String × Draft) → Prop
  | object {fields : List (String × Draft)}
    (hskip : ∀ f ∈ fields, f.1 ∉ names ++ spare → f.2.skip = .ok ())
    (hnodup : ((named (names ++ spare) fields).map Prod.fst).Nodup) :
    Parts names spare (.object (draftFields fields) none) (named (names ++ spare) fields)
  | array {items : List Draft} (hleast : names.length ≤ items.length)
    (hmost : items.length ≤ (names ++ spare).length) :
    Parts names spare (.array items none) ((names ++ spare).zip items)

theorem map_fst_zip_of_le {names : List α} {items : List β} (h : items.length ≤ names.length) :
    (names.zip items).map Prod.fst = names.take items.length := by
  rw [List.zip_eq_zip_take_min, Nat.min_eq_right h, List.take_length]
  exact List.map_fst_zip (List.length_take_le _ _)

theorem Parts.nodup {names spare : List String} {d : Draft} {parts : List (String × Draft)}
    (h : Parts names spare d parts) (hnames : (names ++ spare).Nodup) :
    (parts.map Prod.fst).Nodup := by
  cases h with
  | object _ hnodup => exact hnodup
  | @array items _ hmost =>
    rw [map_fst_zip_of_le hmost]
    exact hnames.sublist (List.take_sublist _ _)

section Lookup
variable {parts : List (String × Draft)}

theorem lookup_eq_some_iff_mem (hnodup : (parts.map Prod.fst).Nodup) {name : String} {v : Draft} :
    parts.lookup name = some v ↔ (name, v) ∈ parts := by
  induction parts with
  | nil => exact iff_of_false nofun List.not_mem_nil
  | cons p parts ih =>
    obtain ⟨k, w⟩ := p
    obtain ⟨hout, hnodup⟩ := List.nodup_cons.1 hnodup
    rw [List.lookup_cons, List.mem_cons, Prod.mk.injEq]
    by_cases hname : name = k
    · subst hname
      have hrest : (name, v) ∉ parts := fun hmem => hout (List.mem_map.2 ⟨_, hmem, rfl⟩)
      simp [hrest, eq_comm]
    · rw [beq_false_of_ne hname]
      simp only [hname, false_and, false_or]
      exact ih hnodup

theorem lookup_reverse (hnodup : (parts.map Prod.fst).Nodup) (name : String) :
    parts.reverse.lookup name = parts.lookup name := by
  have hreverse : (parts.reverse.map Prod.fst).Nodup := by
    rw [List.map_reverse]
    exact List.nodup_reverse.2 hnodup
  refine Option.ext fun v => ?_
  rw [lookup_eq_some_iff_mem hreverse, lookup_eq_some_iff_mem hnodup, List.mem_reverse]

end Lookup

/-! ### Declared fields -/

/-- A field accepts what it is given among parts. -/
def FieldSpec.Accepts (spec : FieldSpec) (parts : List (String × Draft)) : Prop :=
  match parts.lookup spec.name with
  | some v => spec.check v = .ok ()
  | none => spec.absence ≠ .refused

theorem isSome_lookup_iff {parts : List (String × Draft)} {name : String} :
    (parts.lookup name).isSome ↔ name ∈ parts.map Prod.fst := by
  induction parts with
  | nil => exact iff_of_false nofun List.not_mem_nil
  | cons p parts ih =>
    rw [List.lookup_cons, List.map_cons, List.mem_cons, ← ih]
    by_cases hname : name = p.1
    · simp [hname]
    · simp only [beq_false_of_ne hname, hname, false_or]

theorem isSome_find?_iff {specs : List FieldSpec} {name : String} :
    (specs.find? (·.name == name)).isSome ↔ name ∈ specs.map (·.name) := by
  simp

section Walks
variable {specs : List FieldSpec} {seen seen' : List (String × Draft)}

theorem exists_draftFields {fields : List (Option String × Draft)}
    (h : walkFields specs seen fields = .ok seen') : ∃ all, fields = draftFields all := by
  induction fields generalizing seen with
  | nil => exact ⟨[], rfl⟩
  | cons f fields ih =>
    obtain ⟨k | k, d⟩ := f
    · cases h
    · suffices hrest : ∃ seen, walkFields specs seen fields = .ok seen' by
        obtain ⟨seen, hrest⟩ := hrest
        obtain ⟨all, rfl⟩ := ih hrest
        exact ⟨(k, d) :: all, rfl⟩
      rw [walkFields] at h
      split at h
      · obtain ⟨-, -, h⟩ := bind_eq_ok_iff.1 h
        exact ⟨_, h⟩
      · split at h
        · cases h
        · obtain ⟨-, -, h⟩ := bind_eq_ok_iff.1 h
          exact ⟨_, h⟩

/-- **The walk through an object**: its declared fields are different ones with acceptable values,
and its other fields can be skipped. -/
theorem walkFields_eq_ok_iff {names : List String} (hnames : specs.map (·.name) = names)
    {all : List (String × Draft)} (hseen : (seen.map Prod.fst).Nodup) :
    walkFields specs seen (draftFields all) = .ok seen' ↔
      (∀ f ∈ all, f.1 ∉ names → f.2.skip = .ok ()) ∧
      (∀ f ∈ named names all, ∀ spec, specs.find? (·.name == f.1) = some spec →
        spec.check f.2 = .ok ()) ∧
      (((named names all).reverse ++ seen).map Prod.fst).Nodup ∧
      seen' = (named names all).reverse ++ seen := by
  subst hnames
  induction all generalizing seen with
  | nil => simp [draftFields, named, walkFields, hseen, eq_comm]
  | cons f all ih =>
    obtain ⟨k, d⟩ := f
    change walkFields specs seen ((some k, d) :: draftFields all) = _ ↔ _
    rw [walkFields]
    by_cases hdeclared : k ∈ specs.map (·.name)
    · obtain ⟨spec, hfind⟩ := Option.isSome_iff_exists.1 (isSome_find?_iff.2 hdeclared)
      rw [hfind, named_cons_of_mem all hdeclared, List.reverse_cons, List.append_assoc,
        List.singleton_append]
      by_cases hnew : k ∈ seen.map Prod.fst
      · -- The field is given twice.
        simp only [isSome_lookup_iff.2 hnew, if_true]
        refine iff_of_false (by simp) ?_
        rintro ⟨-, -, hnodup, -⟩
        rw [List.map_append, List.map_cons] at hnodup
        exact (List.nodup_cons.1 (List.nodup_append.1 hnodup).2.1).1 hnew
      · have hseen' : (((k, d) :: seen).map Prod.fst).Nodup := List.nodup_cons.2 ⟨hnew, hseen⟩
        have hlookup : ¬(seen.lookup k).isSome = true := mt isSome_lookup_iff.1 hnew
        simp only [if_neg hlookup, check_bind_eq_ok_iff, ih hseen', List.forall_mem_cons, hfind,
          hdeclared, not_true_eq_false, false_imp_iff, true_and, Option.some.injEq, forall_eq']
        tauto
    · have hfind : specs.find? (·.name == k) = none :=
        Option.not_isSome_iff_eq_none.1 (mt isSome_find?_iff.1 hdeclared)
      rw [hfind, named_cons_of_not_mem all hdeclared]
      simp only [check_bind_eq_ok_iff, ih hseen, List.forall_mem_cons, hdeclared,
        liftProblem_eq_ok_iff, not_false_eq_true, true_imp_iff, and_assoc]

/-- **The walk through an array**: it is closed, its items are acceptable for the declared fields in
turn, and only fields that may be absent are left without one. -/
theorem walkItems_eq_ok_iff {source : Source} {expected : String} {stop : Option Problem}
    {done : Nat} {items : List Draft} :
    walkItems source expected stop seen done specs items = .ok seen' ↔
      stop = none ∧ items.length ≤ specs.length ∧
        (∀ spec ∈ specs.drop items.length, spec.absence = .allowed) ∧
        (∀ x ∈ specs.zip items, x.1.check x.2 = .ok ()) ∧
        seen' = ((specs.map (·.name)).zip items).reverse ++ seen := by
  induction specs generalizing items seen done with
  | nil =>
    cases items with
    | nil =>
      rw [walkItems, check_bind_eq_ok_iff, liftProblem_eq_ok_iff, atStop_eq_ok_iff]
      simp [pure, Except.pure, @eq_comm _ seen]
    | cons d items =>
      refine iff_of_false ?_ fun h => absurd h.2.1 (by simp)
      cases source <;> nofun
  | cons spec specs ih =>
    cases items with
    | nil =>
      rw [walkItems, check_bind_eq_ok_iff, liftProblem_eq_ok_iff, atStop_eq_ok_iff]
      by_cases hallowed : spec.absence = .allowed
      · simp [hallowed, ih]
      · simp [hallowed]
    | cons d items =>
      rw [walkItems, check_bind_eq_ok_iff, ih]
      simp only [List.length_cons, Nat.add_le_add_iff_right, List.drop_succ_cons, List.zip_cons_cons,
        List.forall_mem_cons, List.map_cons, List.reverse_cons, List.append_assoc,
        List.singleton_append]
      tauto

theorem requireFields_eq_ok_iff : requireFields seen specs = .ok () ↔
    ∀ spec ∈ specs, spec.absence = .refused → spec.name ∈ seen.map Prod.fst := by
  induction specs with
  | nil => exact iff_of_true rfl fun _ h => nomatch h
  | cons spec specs ih =>
    rw [requireFields, List.forall_mem_cons, ← isSome_lookup_iff]
    by_cases hrefused : spec.absence = .refused <;> cases hfound : seen.lookup spec.name <;>
      simp [hrefused, ih]

end Walks

theorem accepts_iff {spec : FieldSpec} {parts : List (String × Draft)}
    (hnodup : (parts.map Prod.fst).Nodup) :
    spec.Accepts parts ↔ (∀ v, (spec.name, v) ∈ parts → spec.check v = .ok ()) ∧
      (spec.absence = .refused → spec.name ∈ parts.map Prod.fst) := by
  unfold FieldSpec.Accepts
  rw [← isSome_lookup_iff]
  simp only [← lookup_eq_some_iff_mem hnodup]
  cases parts.lookup spec.name <;> simp

section Declared
variable {source : Source} {name : String} {specs : List FieldSpec}
  (hnames : (specs.map (·.name)).Nodup)
include hnames

theorem find?_of_mem {spec : FieldSpec} (h : spec ∈ specs) :
    specs.find? (·.name == spec.name) = some spec := by
  obtain ⟨spec', hfind⟩ :=
    Option.isSome_iff_exists.1 (isSome_find?_iff.2 (List.mem_map_of_mem h))
  have hname := List.find?_some hfind
  have hmem := List.mem_of_find?_eq_some hfind
  rw [hfind, List.inj_on_of_nodup_map hnames hmem h (eq_of_beq hname)]

/-- **An object** is read with its declared fields. -/
theorem readFieldsOf_object_iff {fields : List (Option String × Draft)} {stop : Option Problem}
    {seen : List (String × Draft)} :
    readFieldsOf source name specs (.object fields stop) = .ok seen ↔
      ∃ all, fields = draftFields all ∧ stop = none ∧
        (∀ f ∈ all, f.1 ∉ specs.map (·.name) → f.2.skip = .ok ()) ∧
        ((named (specs.map (·.name)) all).map Prod.fst).Nodup ∧
        (∀ spec ∈ specs, spec.Accepts (named (specs.map (·.name)) all)) ∧
        seen = (named (specs.map (·.name)) all).reverse := by
  have hempty : (([] : List (String × Draft)).map Prod.fst).Nodup := List.nodup_nil
  have hrequired : ∀ {parts : List (String × Draft)},
      requireFields (parts.reverse ++ []) specs = .ok () ↔
        ∀ spec ∈ specs, spec.absence = .refused → spec.name ∈ parts.map Prod.fst := by
    intro parts
    simp only [requireFields_eq_ok_iff, List.append_nil, List.map_reverse, List.mem_reverse]
  rw [readFieldsOf, bind_eq_ok_iff]
  constructor
  · rintro ⟨seen', hwalk, hrest⟩
    obtain ⟨all, rfl⟩ := exists_draftFields hwalk
    obtain ⟨hskip, hcheck, hnodup, rfl⟩ := (walkFields_eq_ok_iff rfl hempty).1 hwalk
    obtain ⟨hstop, hrest⟩ := check_bind_eq_ok_iff.1 hrest
    obtain ⟨hrequire, hseen⟩ := check_bind_eq_ok_iff.1 hrest
    rw [List.append_nil, List.map_reverse, List.nodup_reverse] at hnodup
    refine ⟨all, rfl, atStop_eq_ok_iff.1 (liftProblem_eq_ok_iff.1 hstop), hskip, hnodup,
      fun spec hspec => (accepts_iff hnodup).2 ⟨fun v hv => ?_, hrequired.1 hrequire spec hspec⟩, ?_⟩
    · exact hcheck _ hv spec (find?_of_mem hnames hspec)
    · exact (Except.ok.inj hseen).symm.trans (List.append_nil _)
  · rintro ⟨all, rfl, rfl, hskip, hnodup, haccepts, rfl⟩
    have haccepts := fun spec hspec => (accepts_iff hnodup).1 (haccepts spec hspec)
    refine ⟨(named (specs.map (·.name)) all).reverse ++ [],
      (walkFields_eq_ok_iff rfl hempty).2 ⟨hskip, fun f hf spec hfind => ?_, ?_, rfl⟩, ?_⟩
    · have hname : spec.name = f.1 := by simpa using List.find?_some hfind
      exact (haccepts spec (List.mem_of_find?_eq_some hfind)).1 f.2 (hname ▸ hf)
    · rwa [List.append_nil, List.map_reverse, List.nodup_reverse]
    · refine check_bind_eq_ok_iff.2 ⟨rfl, check_bind_eq_ok_iff.2 ⟨?_, ?_⟩⟩
      · exact hrequired.2 fun spec hspec => (haccepts spec hspec).2
      · exact congrArg Except.ok (List.append_nil _)

/-- An item of an array belongs to the field with its name. -/
theorem mem_zip_iff {items : List Draft} {spec : FieldSpec} (hspec : spec ∈ specs) {v : Draft} :
    (spec.name, v) ∈ (specs.map (·.name)).zip items ↔ (spec, v) ∈ specs.zip items := by
  rw [List.zip_map_left, List.mem_map]
  constructor
  · rintro ⟨⟨spec', v'⟩, hmem, heq⟩
    obtain ⟨hname, rfl⟩ := Prod.mk.inj heq
    obtain rfl := List.inj_on_of_nodup_map hnames (List.of_mem_zip hmem).1 hspec hname
    exact hmem
  · exact fun hmem => ⟨(spec, v), hmem, rfl⟩

/-- **An array** is read with its items. -/
theorem readFieldsOf_array_iff {items : List Draft} {stop : Option Problem}
    {seen : List (String × Draft)} :
    readFieldsOf source name specs (.array items stop) = .ok seen ↔
      stop = none ∧ items.length ≤ specs.length ∧
        (∀ spec ∈ specs.drop items.length, spec.absence = .allowed) ∧
        (∀ spec ∈ specs, spec.Accepts ((specs.map (·.name)).zip items)) ∧
        seen = ((specs.map (·.name)).zip items).reverse := by
  rw [readFieldsOf, walkItems_eq_ok_iff, List.append_nil]
  refine and_congr_right fun _ => and_congr_right fun hlength => and_congr_right fun hdrop =>
    and_congr_left fun _ => ?_
  have hkeys : ((specs.map (·.name)).zip items).map Prod.fst =
      (specs.take items.length).map (·.name) := by
    rw [map_fst_zip_of_le (by rwa [List.length_map]), List.map_take]
  have hnodup : (((specs.map (·.name)).zip items).map Prod.fst).Nodup := by
    rw [hkeys]
    exact hnames.sublist ((List.take_sublist _ _).map _)
  constructor
  · intro hcheck spec hspec
    refine (accepts_iff hnodup).2 ⟨fun v hv => ?_, fun hrefused => ?_⟩
    · exact hcheck _ ((mem_zip_iff hnames hspec).1 hv)
    · rw [hkeys]
      rw [← List.take_append_drop items.length specs, List.mem_append] at hspec
      -- A field without an item may be absent.
      refine List.mem_map_of_mem (hspec.resolve_right fun hmem => ?_)
      rw [hdrop spec hmem] at hrefused
      cases hrefused
  · rintro haccepts ⟨spec, v⟩ hmem
    have hspec := (List.of_mem_zip hmem).1
    exact ((accepts_iff hnodup).1 (haccepts spec hspec)).1 v ((mem_zip_iff hnames hspec).2 hmem)

end Declared

/-- **The fields of a type** are read from the parts of a draft, if each of them accepts its part.
Here the fields that may be absent from an array come last. -/
theorem readFieldsOf_eq_ok_iff {source : Source} {name : String} {needed spares : List FieldSpec}
    (hneeded : ∀ spec ∈ needed, spec.absence ≠ .allowed)
    (hspares : ∀ spec ∈ spares, spec.absence = .allowed)
    (hnames : ((needed ++ spares).map (·.name)).Nodup) {d : Draft} {seen : List (String × Draft)} :
    readFieldsOf source name (needed ++ spares) d = .ok seen ↔
      ∃ parts, Parts (needed.map (·.name)) (spares.map (·.name)) d parts ∧
        (∀ spec ∈ needed ++ spares, spec.Accepts parts) ∧ seen = parts.reverse := by
  cases d with
  | object fields stop =>
    rw [readFieldsOf_object_iff hnames, List.map_append]
    constructor
    · rintro ⟨all, rfl, rfl, hskip, hnodup, haccepts, rfl⟩
      exact ⟨_, .object hskip hnodup, haccepts, rfl⟩
    · rintro ⟨parts, hparts, haccepts, rfl⟩
      cases hparts with
      | object hskip hnodup => exact ⟨_, rfl, rfl, hskip, hnodup, haccepts, rfl⟩
  | array items stop =>
    have hdrop : (∀ spec ∈ (needed ++ spares).drop items.length, spec.absence = .allowed) ↔
        needed.length ≤ items.length := by
      have hspare : ∀ spec ∈ spares.drop (items.length - needed.length),
          spec.absence = .allowed := fun spec h => hspares spec (List.mem_of_mem_drop h)
      rw [List.drop_append, List.forall_mem_append, and_iff_left hspare, ← List.drop_eq_nil_iff,
        List.eq_nil_iff_forall_not_mem]
      exact forall_congr' fun spec => imp_congr_right fun hmem =>
        iff_false_intro (hneeded spec (List.mem_of_mem_drop hmem))
    rw [readFieldsOf_array_iff hnames, List.map_append, hdrop]
    constructor
    · rintro ⟨rfl, hmost, hleast, haccepts, rfl⟩
      exact ⟨_, .array (by simpa using hleast) (by simpa using hmost), haccepts, rfl⟩
    · rintro ⟨parts, hparts, haccepts, rfl⟩
      cases hparts with
      | array hleast hmost =>
        exact ⟨rfl, by simpa using hmost, by simpa using hleast, haccepts, rfl⟩
  | _ =>
    refine iff_of_false (by simp [readFieldsOf, unexpected_ne_ok]) ?_
    rintro ⟨parts, hparts, -⟩
    cases hparts

/-! ### Reading the parts -/

/-- An optional text: nothing and `null` stand for none. -/
inductive OptionalText : Option Draft → Option String → Prop
  | absent : OptionalText none none
  | null : OptionalText (some .null) none
  | text (s : String) : OptionalText (some (.string s)) (some s)

@[simp] theorem optionalText_some_iff {d : Option Draft} {s : String} :
    OptionalText d (some s) ↔ d = some (.string s) := by
  constructor
  · rintro ⟨⟩
    rfl
  · rintro rfl
    exact .text s

section Read
variable {parts : List (String × Draft)} {name : String} {read : Draft → Decoded α} {a : α}

theorem required_eq_ok_iff :
    required parts name read = .ok a ↔ ∃ v, parts.lookup name = some v ∧ read v = .ok a := by
  unfold required
  cases parts.lookup name <;> simp

theorem readOptional_eq_ok_iff {d : Draft} {o : Option String} :
    readOptional readTextValue d = .ok o ↔ OptionalText (some d) o := by
  cases d with
  | null =>
    constructor
    · intro h
      obtain rfl := Except.ok.inj h
      exact .null
    · rintro ⟨⟩
      rfl
  | string s =>
    constructor
    · intro h
      obtain rfl := Except.ok.inj h
      exact .text s
    · rintro ⟨⟩
      rfl
  | _ => exact iff_of_false nofun nofun

theorem withDefault_eq_ok_iff {default : α} :
    withDefault default parts name read = .ok a ↔
      (parts.lookup name = none ∧ a = default) ∨
        ∃ v, parts.lookup name = some v ∧ read v = .ok a := by
  unfold withDefault
  cases parts.lookup name <;> simp [eq_comm]

theorem withDefault_none_eq_ok_iff {o : Option String} :
    withDefault none parts name (readOptional readTextValue) = .ok o ↔
      OptionalText (parts.lookup name) o := by
  unfold withDefault
  cases parts.lookup name with
  | none =>
    constructor
    · intro h
      obtain rfl := Except.ok.inj h
      exact .absent
    · rintro ⟨⟩
      rfl
  | some d => exact readOptional_eq_ok_iff

/-- A field from which a value is read accepts its part. -/
theorem accepts_of_required (absence : Absence) (h : required parts name read = .ok a) :
    (FieldSpec.of name absence read).Accepts parts := by
  obtain ⟨v, hfound, hread⟩ := required_eq_ok_iff.1 h
  unfold FieldSpec.Accepts FieldSpec.of
  simp only [hfound, hread]
  rfl

theorem accepts_of_withDefault {absence : Absence} (habsence : absence ≠ .refused) {default : α}
    (h : withDefault default parts name read = .ok a) :
    (FieldSpec.of name absence read).Accepts parts := by
  unfold withDefault at h
  unfold FieldSpec.Accepts FieldSpec.of
  cases hfound : parts.lookup name with
  | none => simpa only [hfound] using habsence
  | some v =>
    simp only [hfound] at h
    simp only [h]
    rfl

theorem required_reverse (hnodup : (parts.map Prod.fst).Nodup) :
    required parts.reverse name read = required parts name read := by
  unfold required
  rw [lookup_reverse hnodup]

theorem withDefault_reverse (hnodup : (parts.map Prod.fst).Nodup) (default : α) :
    withDefault default parts.reverse name read = withDefault default parts name read := by
  unfold withDefault
  rw [lookup_reverse hnodup]

end Read

/-- The name of a field, and whether an array may leave it out. -/
def FieldSpec.signature (spec : FieldSpec) : String × Bool := (spec.name, spec.absence = .allowed)

theorem of_map_signature {specs : List FieldSpec} {names : List String} {spare : Bool}
    (h : specs.map FieldSpec.signature = names.map (·, spare)) :
    specs.map (·.name) = names ∧
      ∀ spec ∈ specs, decide (spec.absence = .allowed) = spare := by
  constructor
  · have hnames := congrArg (List.map Prod.fst) h
    rwa [List.map_map, List.map_map, show Prod.fst ∘ (·, spare) = id from rfl, List.map_id] at hnames
  · intro spec hspec
    have hmem : spec.signature ∈ names.map (·, spare) := h ▸ List.mem_map_of_mem hspec
    obtain ⟨name, -, heq⟩ := List.mem_map.1 hmem
    exact (congrArg Prod.snd heq).symm

/-- **A type with fields** is read from the parts of a draft: whatever is made of the fields that
are read, by name and with their own readers, is made of the parts. -/
theorem readFieldsOf_bind_eq_ok_iff (names spare : List String) {source : Source} {name : String}
    {specs : List FieldSpec} {d : Draft} {make : List (String × Draft) → Decoded α} {a : α}
    (hspecs : specs.map FieldSpec.signature = names.map (·, false) ++ spare.map (·, true))
    (hnames : (names ++ spare).Nodup)
    (hmake : ∀ {parts}, (parts.map Prod.fst).Nodup → make parts.reverse = make parts)
    (haccepts : ∀ {parts}, make parts = .ok a → ∀ spec ∈ specs, spec.Accepts parts) :
    (readFieldsOf source name specs d >>= make) = .ok a ↔
      ∃ parts, Parts names spare d parts ∧ make parts = .ok a := by
  obtain ⟨needed, spares, rfl, hneeded, hspares⟩ := List.map_eq_append_iff.1 hspecs
  obtain ⟨rfl, hneeded'⟩ := of_map_signature hneeded
  obtain ⟨rfl, hspares'⟩ := of_map_signature hspares
  have hread : ∀ {seen}, readFieldsOf source name (needed ++ spares) d = .ok seen ↔ _ :=
    readFieldsOf_eq_ok_iff (fun spec h => of_decide_eq_false (hneeded' spec h))
      (fun spec h => of_decide_eq_true (hspares' spec h)) (List.map_append ▸ hnames)
  rw [bind_eq_ok_iff]
  constructor
  · rintro ⟨seen, hseen, hmade⟩
    obtain ⟨parts, hparts, -, rfl⟩ := hread.1 hseen
    exact ⟨parts, hparts, hmake (hparts.nodup hnames) ▸ hmade⟩
  · rintro ⟨parts, hparts, hmade⟩
    exact ⟨parts.reverse, hread.2 ⟨parts, hparts, haccepts hmade, rfl⟩,
      (hmake (hparts.nodup hnames)).trans hmade⟩

end PaperIndex.Json
