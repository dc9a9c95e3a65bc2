import FileDepot.Logging.Configuration
import FileDepot.Proofs.Logging.InUse

/-!
# Parts of a configuration are taken over

Whatever a part of a configuration says, and wherever its references lead, taking it over leaves a guarded
configuration guarded. Its troubles are those of the part; they are reported by the section in which it stands, but
for the failures of calls for which nobody answers.

Contents:

* `LogWork.Guarded`, `PartTrouble.Accounted`, `LogSetup.Guards` — the invariant of a configuration in use, and the
  steps that keep it;
* `LogSetup.onDraft_run`, `LogSetup.maintains_onDraft`, `LogSetup.guards_inPart` — what a step on the draft does to
  the rest;
* `LogSetup.guards_entryOf`, `LogSetup.guards_member`, `LogSetup.guards_replaceMember` — entries of parts and members
  of sections;
* `LogSetup.guards_formatter`, `LogSetup.guards_filter`, `LogSetup.guards_oneHandler`, `LogSetup.guards_logger` — the
  parts of each section, from the steps that each of them takes.
-/

namespace FileDepot

open Step

/-- What calls do, as a world says. -/
abbrev LogCalls := Outside → TableEntries → LogBoard → CallEnd × LogBoard

/-- Some call fails so, and nobody answers for it. -/
def LogCalls.Escape (C : LogCalls) (f : Failure) : Prop :=
  ∃ o given b, (C o given b).1 = .escapes f

variable {C : LogCalls}

/-- The configuration in use is guarded, and the calls that it makes are `C`. -/
structure LogWork.Guarded (C : LogCalls) (K : Value → Prop) (w : LogWork) : Prop where
  draft : w.draft.Guarded K
  calls : w.calls = C

theorem LogWork.Guarded.mono {K K' : Value → Prop} {w : LogWork} (h : w.Guarded C K) (hK : ∀ v, K v → K' v) :
    w.Guarded C K' :=
  ⟨h.draft.mono hK, h.calls⟩

/-- A trouble that its section reports, or that comes from a call. -/
def PartTrouble.Accounted (C : LogCalls) : PartTrouble → Prop
  | .unusable | .waiting => True
  | .escapes f => C.Escape f

namespace LogSetup

/-- A step with a part leaves a guarded configuration guarded, gives what is `P`, and has troubles that are accounted
for. -/
abbrev Guards {α : Type} (C : LogCalls) (K : Value → Prop) (P : α → Prop) (m : PartM α) : Prop :=
  Maintains (LogWork.Guarded C K) P (PartTrouble.Accounted C) m

/-! ## Steps -/

section

variable {K : Value → Prop} {α ε : Type} {P : α → Prop} {E : ε → Prop}

/-- A step on the configuration in use leaves the loggers. -/
theorem onDraft_run (trouble : DraftFault → ε) (m : DraftM α) (w : LogWork) :
    (onDraft trouble m).run w =
      match m.run w.draft with
      | (.ok a, d) => (.ok a, { w with draft := d })
      | (.error f, d) => (.error (trouble f), { w with draft := d }) := by
  unfold onDraft
  rw [run_bind, run_get]
  simp only
  rcases m.run w.draft with ⟨answer, d⟩
  cases answer <;> rfl

theorem maintains_onDraft {E' : DraftFault → Prop} {trouble : DraftFault → ε} {m : DraftM α}
    (hm : Maintains (Draft.Guarded K) P E' m) (hE : ∀ f, E' f → E (trouble f)) :
    Maintains (LogWork.Guarded C K) P E (onDraft trouble m) := by
  intro w hw
  obtain ⟨hleft, hanswer, hfails⟩ := hm w.draft hw.draft
  rw [onDraft_run]
  rcases hrun : m.run w.draft with ⟨answer, d⟩
  rw [hrun] at hleft hanswer hfails
  cases answer with
  | ok a =>
    refine ⟨⟨hleft, hw.calls⟩, ?_, fun f hf => nomatch hf⟩
    intro a' ha'
    obtain rfl : a = a' := Except.ok.inj ha'
    exact hanswer a rfl
  | error f =>
    refine ⟨⟨hleft, hw.calls⟩, fun a ha => (nomatch ha), ?_⟩
    intro f' hf'
    obtain rfl : trouble f = f' := Except.error.inj hf'
    exact hE f (hfails f rfl)

theorem guards_inPart {m : DraftM α} (hm : Maintains (Draft.Guarded K) P (fun _ => True) m) :
    Guards C K P (inPart m) :=
  maintains_onDraft hm fun _ _ => trivial

theorem maintains_onBoard (f : LogBoard → LogBoard) :
    Maintains (LogWork.Guarded C K) (fun _ => True) E (onBoard f) :=
  .modify fun _ hw => ⟨hw.draft, hw.calls⟩

theorem maintains_valueOf (i : Item) : Maintains (LogWork.Guarded C K) (fun _ => True) E (valueOf i) :=
  Maintains.get.bind fun _ _ => .pure trivial

theorem maintains_isTrue (i : Item) : Maintains (LogWork.Guarded C K) (fun _ => True) E (isTrue i) :=
  Maintains.get.bind fun _ _ => .pure trivial

end

theorem inner_nothing : nothing.Inner :=
  Item.inner_plain .null

section

variable {K : Value → Prop}

theorem guards_entriesOf (part : Item) : Guards C K (fun a => part.entries? = some a) (entriesOf part) := by
  unfold entriesOf
  split
  · next a ha => exact .pure ha
  · exact .throw trivial

theorem guards_changeableOf (part : Item) : Guards C K (fun a => part.entries? = some a) (changeableOf part) := by
  unfold changeableOf
  split
  · next a ha => exact .pure (Item.entries?_of_changeable? ha)
  · exact .throw trivial

theorem guards_hasEntry (part : Item) (key : String) :
    Guards C K (fun _ => True) (hasEntry part key) :=
  (guards_entriesOf part).bind fun _ _ => Maintains.get.bind fun _ _ => .pure trivial

theorem guards_putEntry {a : Access} (ha : a.number ≠ Draft.topNumber) {key : Value} (hkey : K key) {i : Item}
    (hi : i.Inner) : Guards C K (fun _ => True) (putEntry a key i) :=
  guards_inPart (.modify fun _ hd => hd.put ha hkey hi)

theorem guards_replaceMember {all : Item} (hall : all.Inner) {name : Value} (hname : K name) {i : Item}
    (hi : i.Inner) : Guards C K (fun _ => True) (replaceMember all name i) :=
  (guards_changeableOf all).bind fun a ha => guards_putEntry (hall a ha) hname hi

variable (hK : Draft.Covers K)
include hK

theorem guards_entryOf {part : Item} (hpart : part.Inner) (key : String) {absent : Item} (habsent : absent.Inner) :
    Guards C K Item.Inner (entryOf part key absent) :=
  (guards_entriesOf part).bind fun a ha => guards_inPart (Draft.maintains_entryOr hK (hpart a ha) key habsent)

theorem guards_pop (a : Access) (key : String) {absent : Item} (habsent : absent.Inner) :
    Guards C K Item.Inner (inPart (Draft.pop a key absent)) :=
  guards_inPart (Draft.maintains_pop hK a key habsent)

theorem guards_member {all : Item} (hall : all.Inner) {name : Value} (hname : K name) :
    Guards C K Item.Inner (member all name) := by
  unfold member
  split
  · exact .throw trivial
  · exact (guards_entriesOf all).bind fun a ha => guards_inPart (Draft.maintains_entry hK (hall a ha) hname)

theorem guards_memberOf (key : String) {name : Value} (hname : K name) :
    Guards C K Item.Inner (memberOf key name) :=
  (guards_inPart (Draft.maintains_entryWith_top (Draft.takes_take hK) key)).bind fun _ hall =>
    guards_member hK hall hname

/-! ## Makers -/

omit hK in
theorem guards_makerOf (i : Item) : Guards C K (fun _ => True) (makerOf i) := by
  unfold makerOf
  split
  · exact .throw trivial
  · exact .throw trivial
  · exact .pure trivial
  · exact .pure trivial
  · exact .pure trivial
  · split
    · exact .pure trivial
    · exact .throw trivial
  · exact .throw trivial

omit hK in
theorem guards_classOf (i : Item) : Guards C K (fun _ => True) (classOf i) := by
  unfold classOf
  split
  · split
    · exact .pure trivial
    · exact .throw trivial
  · exact .throw trivial

theorem guards_arguments {a : Access} (ha : a.number ≠ Draft.topNumber) :
    Guards C K (fun _ => True) (arguments a) := by
  unfold arguments
  refine Maintains.get.bind fun w _ => .mapM ?_
  rintro ⟨key, i⟩ -
  simp only
  split
  · next name hname =>
    refine (guards_inPart (Draft.maintains_entry hK ha (hK.1 _ ?_))).bind fun _ _ => .pure trivial
    rw [hname]
    rfl
  · exact .throw trivial

theorem guards_properties (a : Access) : Guards C K (fun _ => True) (properties a) := by
  unfold properties
  refine (guards_pop hK a _ inner_nothing).bind fun i hi => (maintains_isTrue i).bind fun set _ => ?_
  split
  · exact .pure trivial
  · refine Maintains.get.bind fun w _ => (guards_entriesOf i).bind fun a _ => .mapM ?_
    rintro ⟨key, i⟩ -
    simp only
    split
    · split
      · exact .throw trivial
      · exact .pure trivial
    · exact .throw trivial

omit hK in
theorem guards_formatterWith (format style : Item) (checked : Bool) :
    Guards C K Item.Inner (formatterWith format style checked) := by
  unfold formatterWith
  refine (maintains_valueOf format).bind fun f _ => (maintains_valueOf style).bind fun s _ => ?_
  split
  · exact .pure (Item.inner_of_entries?_eq_none rfl)
  · exact .throw trivial

omit hK in
theorem guards_filterFor (name : Item) : Guards C K Item.Inner (filterFor name) := by
  unfold filterFor
  refine (maintains_valueOf name).bind fun v _ => ?_
  split
  · exact .pure (Item.inner_of_entries?_eq_none rfl)
  · exact .throw trivial

omit hK in
theorem guards_targetOf (i : Item) : Guards C K (fun _ => True) (targetOf i) := by
  unfold targetOf
  split
  · exact .pure trivial
  · exact (maintains_isTrue _).bind fun _ _ => .pure trivial

/-- What comes of a call that a part makes. -/
def callAnswer : CallEnd → Except PartTrouble Item
  | .gives v => .ok (.plain v)
  | .makes => .ok .thing
  | .fails => .error .unusable
  | .escapes f => .error (.escapes f)

omit hK in
theorem inner_of_callAnswer {ending : CallEnd} {i : Item} (h : callAnswer ending = .ok i) : i.Inner := by
  cases ending with
  | gives v =>
    obtain rfl := Except.ok.inj h
    exact Item.inner_plain v
  | makes =>
    obtain rfl := Except.ok.inj h
    exact Item.inner_of_entries?_eq_none rfl
  | fails | escapes f => cases h

omit hK in
theorem accounted_of_callAnswer {o : Outside} {given : TableEntries} {b : LogBoard} {trouble : PartTrouble}
    (h : callAnswer (C o given b).1 = .error trouble) : trouble.Accounted C := by
  cases hends : (C o given b).1 with
  | gives v | makes =>
    rw [hends] at h
    cases h
  | fails =>
    rw [hends] at h
    obtain rfl := Except.error.inj h
    trivial
  | escapes f =>
    rw [hends] at h
    obtain rfl := Except.error.inj h
    exact ⟨o, given, b, hends⟩

omit hK in
theorem called_run (maker : Outside) (given : TableEntries) (w : LogWork) :
    (called maker given).run w =
      (callAnswer (w.calls maker given w.board).1, { w with board := (w.calls maker given w.board).2 }) := by
  unfold called
  rw [run_bind, run_get]
  simp only
  rw [run_bind, run_set]
  cases (w.calls maker given w.board).1 <;> rfl

omit hK in
theorem guards_called (maker : Outside) (given : TableEntries) : Guards C K Item.Inner (called maker given) := by
  intro w hw
  rw [called_run, hw.calls]
  exact ⟨⟨hw.draft, rfl⟩, fun i hi => inner_of_callAnswer hi, fun trouble htrouble => accounted_of_callAnswer htrouble⟩

omit hK in
theorem guards_made (maker : Outside) (given : TableEntries) : Guards C K Item.Inner (made maker given) := by
  unfold made
  split
  · split
    · exact .throw trivial
    · exact (maintains_isTrue _).bind fun _ _ => guards_formatterWith _ _ _
  · split
    · exact .throw trivial
    · exact guards_filterFor _
  · refine (guards_targetOf _).bind fun target _ => ?_
    refine (Maintains.mapM fun e _ => (maintains_valueOf e.2).bind fun _ _ => .pure trivial).bind fun given _ => ?_
    refine Maintains.get.bind fun w _ => (maintains_onBoard _).bind fun _ _ => ?_
    split
    · exact .pure (Item.inner_of_entries?_eq_none rfl)
    · exact .throw trivial
  · exact guards_called _ _
  · exact guards_called _ _
  · exact .throw trivial

theorem guards_madeOf {part : Item} (hpart : part.Inner) : Guards C K Item.Inner (madeOf part) := by
  unfold madeOf
  refine (guards_changeableOf part).bind fun a ha => (guards_pop hK a _ inner_nothing).bind fun m _ => ?_
  refine (guards_makerOf m).bind fun maker _ => (guards_arguments hK (hpart a ha)).bind fun given _ => ?_
  refine (guards_made maker given).bind fun i hi => (guards_properties hK a).bind fun set _ => ?_
  split
  · exact (maintains_valueOf _).bind fun _ _ => .pure (Item.inner_of_entries?_eq_none rfl)
  · exact .pure hi

theorem guards_formatter {part : Item} (hpart : part.Inner) : Guards C K Item.Inner (formatter part) := by
  unfold formatter
  refine (guards_hasEntry part _).bind fun named _ => ?_
  split
  · exact guards_madeOf hK hpart
  · refine (guards_entryOf hK hpart _ inner_nothing).bind fun format _ => ?_
    refine (guards_entryOf hK hpart _ inner_nothing).bind fun _ _ => ?_
    refine (guards_entryOf hK hpart _ (Item.inner_plain _)).bind fun style _ => ?_
    refine (guards_entryOf hK hpart _ inner_nothing).bind fun kind _ => ?_
    refine (maintains_isTrue kind).bind fun named _ => ?_
    have hrest : Guards C K Item.Inner (do
        let checked ← entryOf part "validate" (.plain (.bool true))
        formatterWith format style (← isTrue checked)) :=
      (guards_entryOf hK hpart _ (Item.inner_plain _)).bind fun checked _ =>
        (maintains_isTrue checked).bind fun _ _ => guards_formatterWith _ _ _
    simp only
    split
    · refine (guards_classOf kind).bind fun o _ => ?_
      split
      · exact hrest
      · exact .throw_bind trivial _
    · exact hrest

theorem guards_filter {part : Item} (hpart : part.Inner) : Guards C K Item.Inner (filter part) := by
  unfold filter
  refine (guards_hasEntry part _).bind fun named _ => ?_
  split
  · exact guards_madeOf hK hpart
  · exact (guards_entryOf hK hpart _ (Item.inner_plain _)).bind fun name _ => guards_filterFor name

end

/-! ## Handlers -/

/-- Nothing is said of keys. -/
def AnyKey : Value → Prop := fun _ => True

theorem covers_anyKey : Draft.Covers AnyKey :=
  ⟨fun _ _ => trivial, fun _ => trivial⟩

theorem guards_memberAny (key : String) (name : Value) : Guards C AnyKey Item.Inner (memberOf key name) :=
  guards_memberOf covers_anyKey key trivial

theorem guards_useFilters (filters : Item) {add : LogFilter → PartM Unit}
    (hadd : ∀ f, Guards C AnyKey (fun _ => True) (add f)) :
    Guards C AnyKey (fun _ => True) (useFilters filters add) := by
  unfold useFilters
  refine Maintains.get.bind fun w _ => ?_
  split
  · exact .throw trivial
  · refine .forM fun i _ => ?_
    split
    · exact hadd _
    · refine (maintains_valueOf i).bind fun name _ => (guards_memberAny "filters" name).bind fun _ _ => ?_
      exact hadd _

theorem guards_handlerFormat (name : Item) : Guards C AnyKey (fun _ => True) (handlerFormat name) := by
  unfold handlerFormat
  refine (maintains_isTrue name).bind fun named _ => ?_
  split
  · exact .pure trivial
  · refine (maintains_valueOf name).bind fun v _ => (guards_memberAny "formatters" v).bind fun i _ => ?_
    split
    · exact .pure trivial
    · exact .pure trivial

theorem guards_findTarget {a : Access} (ha : a.number ≠ Draft.topNumber) {first : TableEntries}
    (hfirst : ∀ e ∈ first, e.2.Inner) : Guards C AnyKey (fun _ => True) (findTarget a first) := by
  unfold findTarget
  refine (guards_inPart (Draft.maintains_entry covers_anyKey ha trivial)).bind fun name _ => ?_
  refine (maintains_valueOf name).bind fun v _ => (guards_memberAny "handlers" v).bind fun i hi => ?_
  split
  · exact guards_putEntry ha trivial hi
  · exact (Maintains.forM fun e he => guards_putEntry ha trivial (hfirst e he)).bind fun _ _ => .throw trivial

theorem guards_makeTuple {a : Access} (ha : a.number ≠ Draft.topNumber) (key : String) :
    Guards C AnyKey (fun _ => True) (makeTuple a key) := by
  unfold makeTuple
  refine (guards_inPart (Draft.maintains_entryOr covers_anyKey ha key inner_nothing)).bind fun i _ => ?_
  refine (maintains_valueOf i).bind fun v _ => ?_
  split
  · next _ vs => exact guards_putEntry ha trivial (Item.inner_plain (.tuple vs))
  · exact .pure trivial

theorem guards_handlerMaker (part : Item) {a : Access} (ha : a.number ≠ Draft.topNumber)
    {first : TableEntries} (hfirst : ∀ e ∈ first, e.2.Inner) :
    Guards C AnyKey (fun _ => True) (handlerMaker part a first) := by
  unfold handlerMaker
  refine (guards_hasEntry part _).bind fun named _ => ?_
  split
  · exact (guards_pop covers_anyKey a _ inner_nothing).bind fun i _ => guards_makerOf i
  · refine (guards_pop covers_anyKey a _ inner_nothing).bind fun i _ => (guards_classOf i).bind fun maker _ => ?_
    simp only
    split
    · refine (guards_hasEntry part _).bind fun targeted _ => ?_
      split
      · exact (guards_findTarget ha hfirst).bind fun _ _ => .pure trivial
      · exact .pure trivial
    · exact (guards_makeTuple ha _).bind fun _ _ => .pure trivial
    · exact (guards_makeTuple ha _).bind fun _ _ => .pure trivial
    · exact .pure trivial
    · exact .pure trivial
    · exact .pure trivial
    · exact .throw_bind trivial _

theorem guards_levelOr (absent : Value) (level : Item) {K : Value → Prop} :
    Guards C K (fun _ => True) (levelOr absent level) := by
  unfold levelOr
  refine (maintains_valueOf level).bind fun v _ => ?_
  split
  · exact .pure trivial
  · split
    · exact .pure trivial
    · exact .throw trivial

/-- The properties of a part are set on a handler. -/
theorem guards_setProperties (number : Nat) (given : List (String × Item)) :
    Guards C AnyKey (fun _ => True) (given.forM fun (name, i) => do
      let v ← valueOf i
      if !isSettable name v then throw .unusable
      onHandler number fun h => withProperty h name v) := by
  refine .forM ?_
  rintro ⟨name, i⟩ -
  refine (maintains_valueOf i).bind fun v _ => ?_
  split
  · exact .throw_bind trivial _
  · exact maintains_onBoard _

theorem guards_handler {part : Item} (hpart : part.Inner) : Guards C AnyKey Item.Inner (handler part) := by
  unfold handler
  refine (guards_changeableOf part).bind fun a ha => Maintains.get.bind fun w hw => ?_
  refine (guards_pop covers_anyKey a _ inner_nothing).bind fun format _ => ?_
  refine (guards_handlerFormat format).bind fun format _ => ?_
  refine (guards_pop covers_anyKey a _ inner_nothing).bind fun level _ => ?_
  refine (guards_pop covers_anyKey a _ inner_nothing).bind fun filters _ => ?_
  refine (guards_handlerMaker part (hpart a ha) (hw.draft.tables _)).bind fun maker _ => ?_
  refine (guards_arguments covers_anyKey (hpart a ha)).bind fun given _ => (guards_made maker given).bind fun i hi => ?_
  simp only
  split
  · next number =>
    refine (guards_levelOr _ level).bind fun level _ => (maintains_onBoard _).bind fun _ _ => ?_
    refine (maintains_isTrue filters).bind fun filtered _ => ?_
    split
    · refine (guards_useFilters filters fun _ => maintains_onBoard _).bind fun _ _ => ?_
      refine (guards_properties covers_anyKey a).bind fun given _ => ?_
      exact (guards_setProperties number given).bind fun _ _ => .pure hi
    · refine (guards_properties covers_anyKey a).bind fun given _ => ?_
      exact (guards_setProperties number given).bind fun _ _ => .pure hi
  · refine (maintains_valueOf level).bind fun _ _ => (maintains_isTrue filters).bind fun _ _ => ?_
    split
    · exact .throw_bind trivial _
    · exact (guards_properties covers_anyKey a).bind fun _ _ => .pure hi
  · refine (maintains_valueOf level).bind fun _ _ => (maintains_isTrue filters).bind fun _ _ => ?_
    split
    · exact .throw_bind trivial _
    · exact (guards_properties covers_anyKey a).bind fun _ _ => .pure hi
  · exact .throw_bind trivial _

theorem guards_oneHandler {all : Item} (hall : all.Inner) (name : Value) :
    Guards C AnyKey (fun _ => True) (oneHandler all name) := by
  unfold oneHandler
  refine (guards_member covers_anyKey hall trivial).bind fun part hpart => (guards_handler hpart).bind fun i hi => ?_
  exact (maintains_onBoard _).bind fun _ _ => guards_replaceMember hall trivial hi

theorem guards_handlerLevel (n : Nat) {part : Item} (hpart : part.Inner) :
    Guards C AnyKey (fun _ => True) (handlerLevel n part) := by
  unfold handlerLevel
  refine (guards_entryOf covers_anyKey hpart _ inner_nothing).bind fun level _ => ?_
  refine (maintains_isTrue level).bind fun given _ => ?_
  split
  · exact (guards_levelOr _ _).bind fun level _ => maintains_onBoard _
  · exact .pure trivial

/-! ## Loggers -/

theorem guards_attachAll (name : String) (handlers : Item) :
    Guards C AnyKey (fun _ => True) (attachAll name handlers) := by
  unfold attachAll
  refine Maintains.get.bind fun w _ => ?_
  split
  · exact .throw trivial
  · refine .forM fun i _ => ?_
    refine (maintains_valueOf i).bind fun v _ => (guards_memberAny "handlers" v).bind fun i _ => ?_
    split
    · exact maintains_onBoard _
    · exact .throw trivial

theorem guards_common (adding : Bool) (name : String) {part : Item} (hpart : part.Inner) :
    Guards C AnyKey (fun _ => True) (common adding name part) := by
  unfold common
  refine Maintains.get.bind fun w _ => (guards_entryOf covers_anyKey hpart _ inner_nothing).bind fun level _ => ?_
  refine (guards_levelOr _ level).bind fun level _ => (maintains_onBoard _).bind fun _ _ => ?_
  split
  · refine (maintains_onBoard _).bind fun _ _ => ?_
    refine (guards_entryOf covers_anyKey hpart _ inner_nothing).bind fun handlers _ => ?_
    refine (maintains_isTrue handlers).bind fun attached _ => ?_
    have hfilters : Guards C AnyKey (fun _ => True) (do
        let filters ← entryOf part "filters" nothing
        if ← isTrue filters then
          useFilters filters fun f => onLogger name fun l => { l with filters := l.filters ++ [f] }) := by
      refine (guards_entryOf covers_anyKey hpart _ inner_nothing).bind fun filters _ => ?_
      refine (maintains_isTrue filters).bind fun filtered _ => ?_
      split
      · exact guards_useFilters filters fun _ => maintains_onBoard _
      · exact .pure trivial
    split
    · exact (guards_attachAll name handlers).bind fun _ _ => hfilters
    · exact hfilters
  · exact .pure trivial

theorem guards_logger (adding : Bool) (name : Value) {part : Item} (hpart : part.Inner) :
    Guards C AnyKey (fun _ => True) (logger adding name part) := by
  unfold logger
  split
  · exact .throw trivial
  · refine (maintains_onBoard _).bind fun _ _ => (guards_common adding _ hpart).bind fun _ _ => ?_
    refine (maintains_onBoard _).bind fun _ _ => ?_
    refine (guards_entryOf covers_anyKey hpart _ inner_nothing).bind fun propagate _ => ?_
    refine (maintains_valueOf propagate).bind fun v _ => ?_
    split
    · exact maintains_onBoard _
    · exact .pure trivial

end LogSetup

end FileDepot
