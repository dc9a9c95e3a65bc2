import FileDepot.Proofs.Query.Meaning
import FileDepot.Proofs.Store.Lookups

/-!
# Lookups by the value of a field

A criterion that a field equals a value is sent to the store as an entry of the filter, and there the value is
compared with that of the field. A value that is a mapping with operators as its keys does not get that far: as
an entry of a filter it is read as these operators.

Contents:

* `StoredAs.eq_of_patternFree`, `Native.filter_field` — a value without patterns is sent as it is;
* `Filter.select_eq_filterM` — the records that a filter accepts, with the failure of the first test that fails;
* `Value.operators?`, `Filter.conditionAccepts_value` — the values that are read as operators, and the others;
* `Template.find_of_value` — what a criterion of equality finds.
-/

namespace FileDepot

/-! ## Values that are sent as they are -/

theorem ItemsStoredAs.eq_of_forall {vs ws : List Value} (h : ItemsStoredAs vs ws)
    (hvs : ∀ v ∈ vs, ∀ w, StoredAs v w → w = v) : ws = vs := by
  induction vs generalizing ws with
  | nil =>
    cases h
    rfl
  | cons v vs ih =>
    obtain ⟨hv, hvs⟩ := List.forall_mem_cons.mp hvs
    cases h with
    | cons hw hws => rw [hv _ hw, ih hws hvs]

theorem EntriesStoredAs.eq_of_forall {es gs : Entries} (h : EntriesStoredAs es gs)
    (hes : ∀ e ∈ es, ∀ w, StoredAs e.2 w → w = e.2) : gs = es := by
  induction es generalizing gs with
  | nil =>
    cases h
    rfl
  | cons e es ih =>
    obtain ⟨k, v⟩ := e
    obtain ⟨hv, hrest⟩ := List.forall_mem_cons.mp hes
    cases h with
    | cons hw hgs => rw [hv _ hw, ih hgs hrest]

/-- A value without patterns has no other form. -/
theorem StoredAs.eq_of_patternFree {v w : Value} (h : StoredAs v w) (hfree : v.PatternFree) : w = v := by
  induction v using Value.induction_parts generalizing w with
  | parts v ih =>
    cases h with
    | same => rfl
    | pattern => cases hfree.isPattern_eq
    | list h =>
      have hitems := h.eq_of_forall fun u hu w hw => ih u hu hw (hfree.of_mem_parts hu)
      rw [hitems]
    | mapping h =>
      have hentries := h.eq_of_forall fun e he w hw =>
        have hpart : e.2 ∈ (Value.map .plain _).parts := List.mem_map_of_mem he
        ih e.2 hpart hw (hfree.of_mem_parts hpart)
      rw [hentries]

namespace Native

/-- A key that does not start with a dollar sign joins no filters. -/
theorem isLogical_text {name : String} (h : name.toList.head? ≠ some '$') :
    isLogical (.text name) = false := by
  have hne {other : String} (hother : other.toList.head? = some '$') : (some name == some other) = false := by
    rw [beq_eq_false_iff_ne]
    rintro ⟨⟩
    exact h hother
  simp only [isLogical, Value.text?]
  rw [hne (by decide), hne (by decide), hne (by decide)]
  rfl

/-- **A value without patterns is sent as it is** under a key that does not name the identifier. -/
theorem filter_field {name : String} {v : Value} (hid : name ≠ "id") (hid' : name ≠ "_id")
    (hdollar : name.toList.head? ≠ some '$') (hv : Operand v) (hfree : v.PatternFree) :
    filter (.document [(.text name, v)]) = .ok [(.text name, v)] := by
  have hkey : isIdKey (.text name) = false := by simp [isIdKey, Value.text?, hid, hid']
  have hplain : Plain [(.text name, v)] := .field (isLogical_text hdollar) hkey hv (by simp) .nil
  obtain ⟨gs, hgs, hstored⟩ := filterEntries_storedAs hplain
  have hentries : gs = [(.text name, v)] := by
    refine hstored.eq_of_forall fun e he w hw => ?_
    obtain rfl := List.mem_singleton.mp he
    exact hw.eq_of_patternFree hfree
  have hfilter := filter_of_entries hplain hgs hstored .plain
  rw [hentries] at hfilter
  exact hfilter

end Native

/-! ## Testing values -/

namespace Value

/-- The operators as which a value is read that is a mapping with nothing else as its keys. -/
def operators? : Value → Option Entries
  | .map .plain es =>
    if !es.isEmpty && es.all fun e => e.1.text?.any fun name => name.toList.head? == some '$' then some es
    else none
  | _ => none

/-- What equals a value, unless something refuses to be compared with it. -/
theorem filterM_equals {α : Type} (value : α → Value) (v : Value) (xs : List α) :
    (xs.filterM fun x => (value x).equals v) =
      if xs.any fun x => (value x).disturbs v then .error .incomparableDecimal
      else .ok (xs.filter fun x => (value x).same v) := by
  induction xs with
  | nil => rfl
  | cons x xs ih =>
    rw [filterM_cons, ih, equals, List.any_cons, List.filter_cons]
    cases (value x).disturbs v with
    | true => rfl
    | false => cases xs.any fun x => (value x).disturbs v <;> rfl

end Value

namespace Filter

/-- The records that a filter accepts, or the failure of the first test that fails. -/
theorem select_eq_filterM {α : Type} (engine : Engine) (record : α → Value) (filter : Entries) (xs : List α) :
    select engine record filter xs = xs.filterM fun x => accepts engine (record x) filter := by
  induction xs with
  | nil => rfl
  | cons x xs ih =>
    rw [select, filterM_cons, ih]

/-- The mapping is read as operators exactly if that is what its keys are. -/
theorem isOperatorDocument_eq {es : Entries} (hkeys : ∀ e ∈ es, e.1.text?.isSome = true) :
    isOperatorDocument es = .ok (Value.map .plain es).operators?.isSome := by
  have hall : isOperatorDocument.startWithDollar es =
      .ok (es.all fun e => e.1.text?.any fun name => name.toList.head? == some '$') := by
    induction es with
    | nil => rfl
    | cons e es ih =>
      obtain ⟨hkey, hkeys⟩ := List.forall_mem_cons.mp hkeys
      obtain ⟨name, hname⟩ := Option.isSome_iff_exists.mp hkey
      rw [isOperatorDocument.startWithDollar, List.all_cons, hname, ih hkeys, Option.any_some]
      simp only
      cases name.toList.head? == some '$' <;> rfl
  cases es with
  | nil => rfl
  | cons e es =>
    show isOperatorDocument.startWithDollar (e :: es) = _
    rw [hall, Value.operators?, List.isEmpty_cons, Bool.not_false, Bool.true_and]
    cases (e :: es).all fun e => e.1.text?.any fun name => name.toList.head? == some '$' <;> rfl

/-- **How a value is tested as a condition**: by its operators, if it is read as such, and otherwise by
equality. -/
theorem conditionAccepts_value (engine : Engine) {v : Value} (hv : Native.Operand v) (hfree : v.PatternFree)
    (value : Value) :
    conditionAccepts engine value v =
      match v.operators? with
      | some es => operatorsAccept engine ((Entries.get? "$options" es).getD (.text "")) value es
      | none => value.equals v := by
  cases hv with
  | scalar h =>
    cases v with
    | map kind es => cases h
    | pattern p | storedRegex r => cases hfree.isPattern_eq
    | _ => rfl
  | pattern => cases hfree.isPattern_eq
  | list => rfl
  | @mapping es hkeys =>
    have hread := isOperatorDocument_eq hkeys
    have hself (gs : Entries) (h : (Value.map .plain es).operators? = some gs) : gs = es := by
      rw [Value.operators?] at h
      split at h
      · exact (Option.some.inj h).symm
      · cases h
    rw [conditionAccepts, hread]
    cases hoperators : (Value.map .plain es).operators? with
    | none => rfl
    | some gs =>
      rw [hself gs hoperators]
      rfl

end Filter

/-! ## What is found -/

namespace Template

/-- What a query of one entry finds that is sent as it is: nothing if the value cannot be told. -/
theorem find_of_field {t : Template} {s : Store} {name : String} {v : Value}
    (hfilter : Native.filter (.document [(.text name, v)]) = .ok [(.text name, v)])
    (hdollar : name.toList.head? ≠ some '$') :
    ((t.find (some { criteria := [(.text name, v)] })).run s).1.map (·.files) =
      if v.writable then (s.bucket t.bucketName).files.filterM fun f =>
        Filter.conditionAccepts s.engine (f.document.at (pathKeys name)) v
      else .error Value.longNumber := by
  have hentry : (Value.document [(.text name, v)]).writable = v.writable := by
    show (true && v.writable && true) = v.writable
    rw [Bool.and_true, Bool.true_and]
  cases hv : v.writable with
  | false =>
    rw [find_of_not_writable t s hfilter (hentry.trans hv)]
    rfl
  | true =>
    have haccepts (record : Value) : Filter.accepts s.engine record [(.text name, v)] =
        Filter.conditionAccepts s.engine (record.at (pathKeys name)) v := by
      refine Filter.accepts_field s.engine record v ?_ ?_ <;>
      · rintro rfl
        exact hdollar (by decide)
    have hfiles : (s.bucket t.bucketName).lookup s.engine { filter := [(.text name, v)] } =
        (s.bucket t.bucketName).files.filterM fun f =>
          Filter.conditionAccepts s.engine (f.document.at (pathKeys name)) v := by
      simp only [← haccepts]
      rw [← Filter.select_eq_filterM, Bucket.lookup]
      cases Filter.select s.engine StoredFile.document [(.text name, v)] (s.bucket t.bucketName).files <;> rfl
    rw [find_run, lookupFor_of_writable hfilter (hentry.trans hv)]
    simp only
    rw [hfiles]
    cases (s.bucket t.bucketName).files.filterM fun f =>
      Filter.conditionAccepts s.engine (f.document.at (pathKeys name)) v <;> rfl

/-- **What a criterion of equality finds.** Unless the value is read as operators, these are the files the field
of which equals it, in the order of upload; only a number too long to be told of, and a decimal that refuses to be
compared, prevent that. A value that is read as operators finds the files that satisfy them. -/
theorem find_of_value (t : Template) (s : Store) {key : String} {v : Value} (hkey : key ≠ "") (hid : key ≠ "id")
    (hid' : key ≠ "_id") (hdollar : key.toList.head? ≠ some '$') (hv : Native.Operand v) (hfree : v.PatternFree) :
    ∃ c q, (Criterion.on (.text key) >>= fun c => c.equalTo v) = .ok c ∧
      Query.ofParts [.criterion c] = .ok q ∧
      let files := (s.bucket t.bucketName).files
      let value := fun f : StoredFile => f.document.at (pathKeys key)
      let found := ((t.find (some q)).run s).1.map (·.files)
      (v.writable = false → found = .error Value.longNumber) ∧
      (v.writable = true → v.operators? = none →
        found =
          if files.any fun f => (value f).disturbs v then .error .incomparableDecimal
          else .ok (files.filter fun f => (value f).same v)) ∧
        ∀ es, v.writable = true → v.operators? = some es →
          found = files.filterM fun f =>
            Filter.operatorsAccept s.engine ((Entries.get? "$options" es).getD (.text "")) (value f) es := by
  have hcriterion : (Criterion.on (.text key) >>= fun c => c.equalTo v) =
      .ok { key := .text key, condition := .equals v } := by
    have htruthy : (Value.text key).truthy = true := by simpa [Value.truthy] using hkey
    rw [Criterion.on, htruthy]
    rfl
  refine ⟨_, { criteria := [(.text key, v)] }, hcriterion, rfl, ?_⟩
  intro files value found
  have hfound : found = if v.writable then files.filterM fun f => Filter.conditionAccepts s.engine (value f) v
      else .error Value.longNumber :=
    find_of_field (Native.filter_field hid hid' hdollar hv hfree) hdollar
  simp only [Filter.conditionAccepts_value s.engine hv hfree] at hfound
  refine ⟨fun hwritable => ?_, fun hwritable hnone => ?_, fun es hwritable hes => ?_⟩
  · rwa [hwritable, if_neg (by simp)] at hfound
  · rw [hwritable, if_pos rfl, hnone] at hfound
    rw [hfound]
    exact Value.filterM_equals value v files
  · rw [hwritable, if_pos rfl, hes] at hfound
    exact hfound

/-- Of two files only the first has this mapping as the value of the field, but as the mapping has an operator
as its key, both files are found by it; a number finds the file that has it. -/
theorem find_of_operator_value :
    let mapping : Value := .document [(.text "$exists", .bool true)]
    let uploads : List Store.Action := [.upload "fs" (.text "a") [1] none (.document [(.text "k", mapping)]),
      .upload "fs" (.text "b") [2] none (.document [(.text "k", .int 1)])]
    let s := uploads.foldl Store.Action.after {}
    let t : Template := {}
    let found (v : Value) : Except Failure (List Nat) := do
      let c ← Criterion.on (.text "metadata.k")
      let q ← Query.ofParts [.criterion (← c.equalTo v)]
      (((t.find (some q)).run s).1.map (·.files)).map fun files => files.map (·.id.value)
    ((s.bucket "fs").files.filter fun f => (f.document.at ["metadata", "k"]).same mapping).map (·.id.value) = [1] ∧
      found mapping = .ok [1, 2] ∧ found (.int 1) = .ok [2] := by
  intro mapping uploads s t found
  have hmapping : Native.Operand mapping := by
    refine .mapping (by simp [Value.text?]) ?_
    simpa using Native.Operand.scalar rfl
  have hfree : mapping.PatternFree :=
    .mk rfl (by simpa [mapping, Value.parts, Value.document] using Value.patternFree_of_parts_eq_nil rfl rfl)
  have hfound {v : Value} {c : Criterion} {q : Query}
      (hc : (Criterion.on (.text "metadata.k") >>= fun c => c.equalTo v) = .ok c)
      (hq : Query.ofParts [.criterion c] = .ok q) :
      found v = (((t.find (some q)).run s).1.map (·.files)).map fun files => files.map (·.id.value) := by
    obtain ⟨c', hc', hequal⟩ := bind_eq_ok.mp hc
    simp only [found, hc', hequal, hq, bind, Except.bind]
  refine ⟨by decide +kernel, ?_, ?_⟩
  · obtain ⟨c, q, hc, hq, -, -, hoperators⟩ :=
      find_of_value t s (show "metadata.k" ≠ "" by decide) (by decide) (by decide) (by decide) hmapping hfree
    rw [hfound hc hq, hoperators _ rfl rfl]
    decide +kernel
  · have hnumber : Native.Operand (.int 1) := .scalar rfl
    have hplain : (Value.int 1).PatternFree := Value.patternFree_of_parts_eq_nil rfl rfl
    have hshort : (Value.int 1).writable = true := by decide +kernel
    obtain ⟨c, q, hc, hq, -, hequality, -⟩ :=
      find_of_value t s (show "metadata.k" ≠ "" by decide) (by decide) (by decide) (by decide) hnumber hplain
    rw [hfound hc hq, hequality hshort rfl]
    decide +kernel

end Template

end FileDepot
