import FileDepot.Logging.Configuration
import FileDepot.Proofs.Logging.Parts
import FileDepot.Proofs.Value.Sorting
import FileDepot.Settings.Field

/-!
# Configurations that are answered

A configuration is applied section by section. What cannot be used in a part is reported as a fault of the section,
and something stands in for such a fault. Other faults come from the configuration itself: an entry that is a
reference leading nowhere, or names that cannot be put in order. They are ruled out for a guarded configuration
whose names are texts.

The names of handlers are put in order before the first handler is made, because making it may change the names by
a reference. From there on nothing is said of keys any more.

Contents:

* `LogFault.Answered`, `LogFault.Accounted` — the faults for which something stands in, or which come from calls;
* `Value.Calm`, `LogSetup.ascending_failsOnly` — names that can be put in order, or are reported;
* `LogSetup.leads_partOf`, `LogSetup.leads_section` — a part within its section;
* `LogSetup.leads_replaceAll`, `LogSetup.leads_handlers`, `LogSetup.leads_loggers`, `LogSetup.leads_root` — the
  sections;
* `LogSetup.leads_add`, `LogSetup.leads_replace` — the two ways to apply a configuration;
* `LogSetup.leads_apply` — a configuration that has been checked is applied, or answered.
-/

namespace FileDepot

open Step

variable {C : LogCalls}

/-! ## Faults -/

/-- Something stands in for what cannot be applied. -/
def LogFault.Answered (f : LogFault) : Prop :=
  f.failure? = none

/-- Something stands in for the fault, or it comes from a call. -/
def LogFault.Accounted (C : LogCalls) (f : LogFault) : Prop :=
  f.Answered ∨ ∃ g, C.Escape g ∧ f = .escaped g

theorem LogFault.answered_ofValue (fault : String → LogFault) (h : ∀ s, (fault s).Answered)
    (render : Value → String) (v : Value) : (ofValue fault render v).Answered := by
  unfold ofValue
  split
  · exact h _
  · rfl
  · exact h _
  · rfl

theorem LogFault.answered_ofName (fault : String → LogFault) (h : ∀ s, (fault s).Answered) (name : Value) :
    (ofName fault name).Answered :=
  answered_ofValue fault h _ _

/-! ## Names in order -/

/-- A key of a section that has been checked, or an index. It is never a decimal. -/
def Value.Calm (v : Value) : Prop :=
  (∃ s, Setting.text v = .ok s) ∨ ∃ n, v = .int n

theorem covers_calm : Draft.Covers Value.Calm := by
  refine ⟨?_, fun n => .inr ⟨n, rfl⟩⟩
  intro v hv
  left
  cases v with
  | text s => exact ⟨s, rfl⟩
  | textMember s => exact ⟨s, rfl⟩
  | _ => cases hv

/-- The number of such a key is a whole one. -/
theorem Value.Calm.number? {v : Value} (h : v.Calm) : v.number? = none ∨ ∃ n, v.number? = some (.exact n 1) := by
  obtain ⟨s, hs⟩ | ⟨n, rfl⟩ := h
  · cases v with
    | text _ | textMember _ | bytes _ | binary _ _ | member _ | foreign _ => exact .inl rfl
    | intMember n => exact .inr ⟨n, rfl⟩
    | _ => cases hs
  · exact .inr ⟨n, rfl⟩

theorem Value.numberPrecedes_of_calm {a b : Value} (ha : a.Calm) (hb : b.Calm) :
    numberPrecedes a b ≠ .error .decimal := by
  unfold numberPrecedes
  obtain ha | ⟨n, ha⟩ := ha.number?
  · rw [ha]
    exact fun h => nomatch h
  · obtain hb | ⟨m, hb⟩ := hb.number?
    · rw [ha, hb]
      exact fun h => nomatch h
    · rw [ha, hb]
      exact fun h => nomatch h

theorem Value.textPrecedes_ne_decimal (s : String) (b : Value) : textPrecedes s b ≠ .error .decimal := by
  unfold textPrecedes
  split <;> exact fun h => nomatch h

theorem Value.bytesPrecede_ne_decimal (x : Bytes) (b : Value) : bytesPrecede x b ≠ .error .decimal := by
  unfold bytesPrecede
  split <;> exact fun h => nomatch h

theorem Value.precedes_of_calm {a b : Value} (ha : a.Calm) (hb : b.Calm) :
    a.precedes b ≠ .error .decimal := by
  cases a with
  | int n => exact numberPrecedes_of_calm ha hb
  | intMember n => exact numberPrecedes_of_calm ha hb
  | text s | textMember s => exact textPrecedes_ne_decimal s b
  | bytes s | binary s _ => exact bytesPrecede_ne_decimal s b
  | foreign f =>
    obtain ⟨s, hs⟩ | ⟨n, hn⟩ := ha
    · cases f with
      | buffer name bs =>
        by_cases hname : name = changeableBytes
        · subst hname
          exact bytesPrecede_ne_decimal bs b
        · have hrefused : Setting.text (.foreign (.buffer name bs)) = .error .text := if_neg hname
          rw [hrefused] at hs
          cases hs
      | _ => cases hs
    · cases hn
  | member v => exact fun h => nomatch h
  | _ =>
    obtain ⟨s, hs⟩ | ⟨n, hn⟩ := ha
    · cases hs
    · cases hn

namespace LogSetup

theorem ascending_failsOnly {names : List Value} (h : ∀ name ∈ names, name.Calm) :
    FailsOnly LogFault.Answered (ascending names) := by
  refine Sorting.sortWith_failsOnly (P := Value.Calm) ?_ h
  intro a b ha hb f hf
  unfold comesBefore at hf
  split at hf
  · cases hf
  · next hdecimal => exact absurd hdecimal (Value.precedes_of_calm ha hb)
  · obtain rfl := Except.error.inj hf
    rfl

/-! ## Steps -/

section

variable {K : Value → Prop} {α : Type} {P : α → Prop}

/-- A trouble that is accounted for is reported as a fault that is. -/
theorem accounted_reported {trouble : PartTrouble} (h : trouble.Accounted C) {fault : LogFault}
    (hfault : fault.Answered) : (trouble.reported fault).Accounted C := by
  cases trouble with
  | unusable | waiting => exact .inl hfault
  | escapes f => exact .inr ⟨f, h, rfl⟩

/-- A trouble of a part is reported as a fault of its section. -/
theorem partOf_run (fault : LogFault) (m : PartM α) (w : LogWork) :
    (partOf fault m).run w = ((m.run w).1.mapError (PartTrouble.reported fault), (m.run w).2) := by
  show partOf fault m w = _
  unfold partOf
  rcases m.run w with ⟨answer, w'⟩
  cases answer <;> rfl

theorem leads_partOf {fault : LogFault} (hfault : fault.Answered) {m : PartM α} (hm : Guards C K P m) :
    Leads (LogWork.Guarded C K) (fun _ => LogWork.Guarded C K) (LogFault.Accounted C) (partOf fault m) := by
  intro w hw
  obtain ⟨hleft, -, htroubles⟩ := hm w hw
  rw [partOf_run]
  refine ⟨?_, ?_⟩
  · intro a t h
    obtain ⟨-, rfl⟩ := Prod.mk.inj h
    exact hleft
  · intro f t h
    obtain ⟨hf, -⟩ := Prod.mk.inj h
    cases hrun : (m.run w).1 with
    | ok a =>
      rw [hrun] at hf
      cases hf
    | error trouble =>
      rw [hrun] at hf
      obtain rfl : trouble.reported fault = f := Except.error.inj hf
      exact accounted_reported (htroubles trouble hrun) hfault

theorem maintains_atTop {m : DraftM α} (hm : Maintains (Draft.Guarded K) P (fun _ => False) m) :
    Maintains (LogWork.Guarded C K) P (LogFault.Accounted C) (atTop m) :=
  maintains_onDraft hm fun _ hf => hf.elim

variable (hK : Draft.Covers K)
include hK

omit hK in
theorem valueOf_plain_run {ε : Type} (v : Value) (w : LogWork) :
    (valueOf (.plain v) : ExceptT ε (StateM LogWork) Value).run w = (.ok v, w) := by
  show ((Except.ok (w.draft.value (.plain v)) : Except ε Value), w) = _
  rw [Draft.value_plain]

omit hK in
theorem mapM_valueOf_run {ε : Type} (items : List Item) (w : LogWork) :
    (items.mapM valueOf : ExceptT ε (StateM LogWork) (List Value)).run w = (.ok (items.map w.draft.value), w) := by
  induction items with
  | nil =>
    rw [List.mapM_nil]
    rfl
  | cons i items ih =>
    rw [List.mapM_cons, run_bind]
    show ((items.mapM valueOf >>= fun vs => pure (w.draft.value i :: vs) :
      ExceptT ε (StateM LogWork) (List Value))).run w = _
    rw [run_bind, ih]
    rfl

omit hK in
theorem namesOf_run (all : Item) (w : LogWork) :
    (namesOf all).run w =
      match w.draft.elements? all with
      | some items => (.ok (items.map w.draft.value), w)
      | none => (.error (.notIterable (w.draft.value all).kindName), w) := by
  unfold namesOf
  rw [run_bind, run_get]
  simp only
  cases w.draft.elements? all with
  | none => rfl
  | some items => exact mapM_valueOf_run items w

omit hK in
theorem leads_namesOf (all : Item) :
    Leads (fun w => w.Guarded C K ∧ all.Firm K w.draft)
      (fun names w => w.Guarded C K ∧ ∀ name ∈ names, K name)
      (LogFault.Accounted C) (namesOf all) := by
  intro w hw
  rw [namesOf_run]
  cases helements : w.draft.elements? all with
  | none =>
    refine ⟨fun names t h => (nomatch congrArg Prod.fst h), ?_⟩
    intro f t hf
    obtain rfl := Except.error.inj (congrArg Prod.fst hf)
    exact .inl rfl
  | some items =>
    refine ⟨?_, fun f t hf => nomatch congrArg Prod.fst hf⟩
    intro names t h
    obtain ⟨hnames, rfl⟩ := Prod.mk.inj h
    obtain rfl := Except.ok.inj hnames
    refine ⟨hw.1, ?_⟩
    intro name hname
    obtain ⟨item, hitem, rfl⟩ := List.mem_map.mp hname
    exact Draft.keys_of_firm hw.2 helements hitem

theorem leads_sectionOf {key : String} (hkey : key ∈ Draft.firmNames) :
    Leads (LogWork.Guarded C K) (fun all w => (w.Guarded C K ∧ all.Firm K w.draft) ∧ all.Inner) (LogFault.Accounted C)
      (atTop (Draft.sectionOf key)) := by
  intro w hw
  obtain ⟨all, d, hrun, hfirm⟩ := Draft.sectionOf_answers hkey hw.draft
  obtain ⟨hleft, hinner, -⟩ := Draft.maintains_sectionOf (E := fun _ => True) hK hkey w.draft hw.draft
  unfold atTop
  rw [hrun] at hleft hinner
  rw [onDraft_run, hrun]
  refine ⟨?_, fun f t hf => nomatch congrArg Prod.fst hf⟩
  intro all' t h
  obtain ⟨hall, rfl⟩ := Prod.mk.inj h
  obtain rfl : all = all' := Except.ok.inj hall
  exact ⟨⟨⟨hleft, hw.calls⟩, hfirm⟩, hinner all rfl⟩

/-- The parts of a section, and their names. -/
theorem leads_section {β : Type} {R : β → LogWork → Prop} {key : String} (hkey : key ∈ Draft.firmNames)
    {f : Item → List Value → LogM β}
    (hf : ∀ all names, all.Inner → (∀ name ∈ names, K name) →
      Leads (LogWork.Guarded C K) R (LogFault.Accounted C) (f all names)) :
    Leads (LogWork.Guarded C K) R (LogFault.Accounted C) (do
      let all ← atTop (Draft.sectionOf key)
      f all (← namesOf all)) := by
  refine (leads_sectionOf hK hkey).bind fun all => ?_
  intro w hw
  refine ((leads_namesOf all).bind fun names => ?_) w hw.1
  intro w' hw'
  exact hf all names hw.2 hw'.2 w' hw'.1

/-! ## Sections -/

/-- The parts of a section are replaced by what is made of them. -/
theorem leads_replaceAll {key : String} (hkey : key ∈ Draft.firmNames) {fault : String → LogFault}
    (hfault : ∀ s, (fault s).Answered) {make : Item → PartM Item}
    (hmake : ∀ part : Item, part.Inner → Guards C K Item.Inner (make part)) :
    Leads (LogWork.Guarded C K) (fun _ => LogWork.Guarded C K) (LogFault.Accounted C) (replaceAll key fault make) := by
  unfold replaceAll
  refine leads_section hK hkey fun all names hall hnames => ?_
  refine (Leads.forEach fun name hname => ?_).bind fun _ => .pure fun _ hw => hw
  have hkey : K name := hnames name hname
  have hpart : Guards C K (fun _ => True) (do replaceMember all name (← make (← member all name))) :=
    (guards_member hK hall hkey).bind fun part hpart => (hmake part hpart).bind fun i hi =>
      guards_replaceMember hall hkey hi
  exact leads_partOf (LogFault.answered_ofName fault hfault name) hpart

end

/-- Handlers are made in turn. Those that wait for another one are left for later. -/
theorem leads_makeHandlers {all : Item} (hall : all.Inner) (names : List Value) :
    Leads (LogWork.Guarded C AnyKey) (fun _ => LogWork.Guarded C AnyKey) (LogFault.Accounted C)
      (makeHandlers all names) := by
  induction names with
  | nil => exact .pure fun _ hw => hw
  | cons name names ih =>
    -- a handler that waits leaves the configuration guarded too, and counts as made later
    have hlater : Leads (LogWork.Guarded C AnyKey) (fun _ => LogWork.Guarded C AnyKey) (LogFault.Accounted C)
        (do pure (name :: (← makeHandlers all names))) := ih.bind fun _ => .pure fun _ hw => hw
    unfold makeHandlers
    intro w hw
    obtain ⟨hleft, -, htroubles⟩ := guards_oneHandler hall name w hw
    rw [run_bind, run_get]
    simp only
    generalize (oneHandler all name).run w = round at hleft htroubles
    obtain ⟨answer, w'⟩ := round
    cases answer with
    | ok u => exact ih w' hleft
    | error trouble =>
      cases trouble with
      | unusable => exact Leads.throw (.inl (LogFault.answered_ofName .handler (fun _ => rfl) name)) w' hleft
      | waiting => exact hlater w' hleft
      | escapes f => exact Leads.throw (.inr ⟨f, htroubles _ rfl, rfl⟩) w' hleft

/-- Handlers are made in the order of their names, none of which is a decimal. -/
theorem leads_handlers :
    Leads (LogWork.Guarded C Value.Calm) (fun _ => LogWork.Guarded C AnyKey) (LogFault.Accounted C) handlers := by
  unfold handlers
  refine leads_section covers_calm (by decide) fun all names hall hnames => ?_
  have hround : ∀ name, Leads (LogWork.Guarded C AnyKey) (fun _ => LogWork.Guarded C AnyKey) (LogFault.Accounted C)
      (partOf (.ofName .handler name) (oneHandler all name)) :=
    fun name => leads_partOf (LogFault.answered_ofName .handler (fun _ => rfl) name) (guards_oneHandler hall name)
  have hmade : ∀ sorted, Leads (LogWork.Guarded C Value.Calm) (fun _ => LogWork.Guarded C AnyKey)
      (LogFault.Accounted C) (do
      for name in ← makeHandlers all sorted do
        partOf (.ofName .handler name) (oneHandler all name)) := by
    intro sorted
    refine ((leads_makeHandlers hall sorted).imp ?_ fun _ _ hw => hw).bind fun waiting => ?_
    · exact fun w hw => hw.mono fun _ _ => trivial
    · exact (Leads.forEach fun name _ => hround name).bind fun _ => .pure fun _ hw => hw
  -- the only step that needs to know what the names are
  have hsorted : Leads (LogWork.Guarded C Value.Calm) (fun _ => LogWork.Guarded C Value.Calm) (LogFault.Accounted C)
      (liftM (ascending names)) := by
    intro w hw
    rw [run_liftM]
    refine ⟨?_, ?_⟩
    · intro sorted t h
      exact (Prod.mk.inj h).2 ▸ hw
    · intro f t h
      exact .inl (ascending_failsOnly hnames f (congrArg Prod.fst h))
  exact hsorted.bind hmade

theorem leads_loggers (adding : Bool) :
    Leads (LogWork.Guarded C AnyKey) (fun _ => LogWork.Guarded C AnyKey) (LogFault.Accounted C) (loggers adding) := by
  unfold loggers
  refine leads_section covers_anyKey (by decide) fun all names hall _ => ?_
  refine (Leads.forEach fun name _ => ?_).bind fun _ => .pure fun _ hw => hw
  have hpart : Guards C AnyKey (fun _ => True) (do logger adding name (← member all name)) :=
    (guards_member covers_anyKey hall trivial).bind fun part hpart => guards_logger adding name hpart
  exact leads_partOf (LogFault.answered_ofName .logger (fun _ => rfl) name) hpart

theorem leads_root (adding : Bool) :
    Leads (LogWork.Guarded C AnyKey) (fun _ => LogWork.Guarded C AnyKey) (LogFault.Accounted C) (root adding) := by
  unfold root
  have hentry := maintains_atTop (C := C) (Draft.maintains_entryOr_top covers_anyKey
    (show "root" ∈ Draft.firmNames by decide) inner_nothing)
  refine Leads.after hentry fun part hpart => .after (maintains_isTrue part) fun given _ => ?_
  split
  · have hroot : LogFault.root.Answered := rfl
    exact leads_partOf hroot (guards_common adding "" hpart)
  · exact .pure fun _ hw => hw

theorem leads_add :
    Leads (LogWork.Guarded C AnyKey) (fun _ => LogWork.Guarded C AnyKey) (LogFault.Accounted C) add := by
  unfold add
  refine leads_section covers_anyKey (by decide) fun all names hall _ => ?_
  refine (Leads.forIn fun name _ => ?_).bind fun _ => (leads_loggers true).bind fun _ => leads_root true
  refine .after .get fun w _ => ?_
  split
  · exact .throw_bind (.inl (LogFault.answered_ofName .unknownHandler (fun _ => rfl) name)) _
  · next n _ =>
    have hpart : Guards C AnyKey (fun _ => True) (do handlerLevel n (← member all name)) :=
      (guards_member covers_anyKey hall trivial).bind fun part hpart => guards_handlerLevel n hpart
    exact (leads_partOf (LogFault.answered_ofName .handler (fun _ => rfl) name) hpart).bind fun _ =>
      .pure fun _ hw => ⟨rfl, hw⟩

theorem leads_replace :
    Leads (LogWork.Guarded C Value.Calm) (fun _ => LogWork.Guarded C AnyKey) (LogFault.Accounted C) replace := by
  unfold replace
  have hdisable := maintains_atTop (C := C) (Draft.maintains_pop_top covers_calm
    (show "disable_existing_loggers" ∈ Draft.firmNames by decide) (Item.inner_plain (.bool true)))
  have hformatter : ∀ s, (LogFault.formatter s).Answered := fun _ => rfl
  have hfilter : ∀ s, (LogFault.filter s).Answered := fun _ => rfl
  refine Leads.after hdisable fun i _ => .after (maintains_valueOf i) fun disable _ => ?_
  refine .after (maintains_onBoard _) fun _ _ => ?_
  refine (leads_replaceAll covers_calm (by decide) hformatter fun _ => guards_formatter covers_calm).bind fun _ => ?_
  refine (leads_replaceAll covers_calm (by decide) hfilter fun _ => guards_filter covers_calm).bind fun _ => ?_
  refine leads_handlers.bind fun _ => .after .get fun w _ => ?_
  refine (leads_loggers false).bind fun names => ?_
  exact .after (maintains_onBoard _) fun _ _ => leads_root false

/-! ## Whole configurations -/

/-- A number that has been checked can be compared with the version that is known. -/
theorem disturbs_version {v : Value} {n : Int} (h : Setting.whole v = .ok n) : v.disturbs version = false := by
  have hplain : v.isRefusing = false → Value.numbersDisturb v version = false := by
    intro hrefusing
    unfold Value.numbersDisturb
    rw [hrefusing]
    exact Bool.and_false _
  cases v with
  | decimal d =>
    cases d with
    | finite negative c e => exact hplain rfl
    | _ => cases h
  | bool b | int m | intMember m | text s | textMember s | bytes bs | binary bs _ | float x | member w =>
    exact hplain rfl
  | _ => cases h

/-- A number that has been checked is taken as it is. -/
theorem take_of_whole {v : Value} {n : Int} (h : Setting.whole v = .ok n)
    (hnone : v.text?.bind Reference.ofText? = none) (d : Draft) :
    (Draft.take (.plain v)).run d = (.ok (.plain v), d) := by
  unfold Draft.take Draft.referenceLimit Draft.takeWithin
  split
  · next heq =>
    obtain rfl := Item.plain.inj heq
    cases h
  · next heq =>
    obtain rfl := Item.plain.inj heq
    cases h
  · next heq => cases heq
  · next heq =>
    obtain rfl := Item.plain.inj heq
    cases h
  · next heq =>
    obtain rfl := Item.plain.inj heq
    cases h
  · next heq =>
    obtain rfl := Item.plain.inj heq
    rw [hnone]
    rfl
  · rfl

theorem whole_firm {K : Value → Prop} {v : Value} {n : Int} (h : Setting.whole v = .ok n) (hfirm : v.Firm K) :
    v.text?.bind Reference.ofText? = none := by
  cases v with
  | map _ _ | list _ | tuple _ => cases h
  | _ => exact hfirm.1

/-- The version of a configuration that has been checked. -/
theorem leads_version {es : Entries} (hguard : (Draft.ofEntries es).Guarded Value.Calm) {v : Value} {n : Int}
    (hversion : es.get? "version" = some v) (hwhole : Setting.whole v = .ok n) (b : LogBoard) :
    Leads (· = ⟨b, Draft.ofEntries es, C⟩) (fun i w => w.Guarded C Value.Calm ∧ i = .plain v) (LogFault.Accounted C)
      (atTop (Draft.entryOr Draft.top "version" nothing)) := by
  have hagain := maintains_atTop (C := C) (Draft.maintains_entryOr_top covers_calm
    (show "version" ∈ Draft.firmNames by decide) inner_nothing)
  rintro w rfl
  obtain ⟨hleft, -, -⟩ := hagain ⟨b, Draft.ofEntries es, C⟩ ⟨hguard, rfl⟩
  have hfind : (Draft.ofEntries es).find? Draft.topNumber (.text "version") = some (.plain v) := by
    rw [Draft.find?_ofEntries, hversion]
    rfl
  have hnone := whole_firm hwhole (hguard.firm "version" (by decide) _ hfind)
  have hrun : (atTop (Draft.entryOr Draft.top "version" nothing)).run ⟨b, Draft.ofEntries es, C⟩ =
      (.ok (.plain v), ⟨b, (Draft.ofEntries es).put Draft.topNumber (.text "version") (.plain v), C⟩) := by
    unfold atTop Draft.entryOr
    rw [onDraft_run, run_bind, run_get]
    simp only [show Draft.top.number = Draft.topNumber from rfl, hfind, Option.isSome_some, if_true]
    rw [show Draft.entry Draft.top (.text "version") = Draft.entryWith Draft.take Draft.topNumber (.text "version")
      from rfl, Draft.entryWith_run, hfind]
    simp only [take_of_whole hwhole hnone]
  rw [hrun] at hleft ⊢
  refine ⟨?_, fun f t hf => nomatch congrArg Prod.fst hf⟩
  intro i t h
  obtain ⟨hi, rfl⟩ := Prod.mk.inj h
  exact ⟨hleft, (Except.ok.inj hi).symm⟩

/-- **A configuration that has been checked is applied, or something stands in for it**, but for the failures of
calls for which nobody answers. -/
theorem leads_apply {es : Entries} (hguard : (Draft.ofEntries es).Guarded Value.Calm) {v : Value} {n : Int}
    (hversion : es.get? "version" = some v) (hwhole : Setting.whole v = .ok n) (b : LogBoard) :
    Leads (· = ⟨b, Draft.ofEntries es, C⟩) (fun _ => LogWork.Guarded C AnyKey) (LogFault.Accounted C) apply := by
  have hagain := maintains_atTop (C := C) (Draft.maintains_entryOr_top covers_calm
    (show "version" ∈ Draft.firmNames by decide) inner_nothing)
  have hincremental := maintains_atTop (C := C) (Draft.maintains_pop_top covers_calm
    (show "incremental" ∈ Draft.firmNames by decide) (Item.inner_plain (.bool false)))
  have hknown : Leads (LogWork.Guarded C Value.Calm) (fun _ => LogWork.Guarded C AnyKey) (LogFault.Accounted C) (do
      if !v.same version then
        let again ← valueOf (← atTop (Draft.entryOr Draft.top "version" nothing))
        throw (.ofValue .version Value.shown again)
      else
        let incremental ← atTop (Draft.pop Draft.top "incremental" (.plain (.bool false)))
        if ← isTrue incremental then add else replace) := by
    split
    · refine .after hagain fun i _ => .after (maintains_valueOf i) fun again _ => ?_
      exact .throw (.inl (LogFault.answered_ofValue .version (fun _ => rfl) _ again))
    · refine .after hincremental fun i _ => .after (maintains_isTrue i) fun incremental _ => ?_
      split
      · exact leads_add.imp (fun w hw => hw.mono fun _ _ => trivial) fun _ _ hw => hw
      · exact leads_replace
  unfold apply
  refine (leads_version hguard hversion hwhole b).bind fun i => ?_
  rintro w ⟨hw, rfl⟩
  rw [run_bind, valueOf_plain_run]
  simp only [disturbs_version hwhole, Bool.false_eq_true, if_false]
  exact hknown w hw

end LogSetup

end FileDepot
