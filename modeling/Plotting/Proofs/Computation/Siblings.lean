import Plotting.Proofs.Computation.Storage
import Plotting.Proofs.Element.Values
import Plotting.Proofs.Json.NewMember

/-!
# Entries do not affect one another

The plotted elements of a result stand in an array of arbitrary values.  Each entry contributes what
it describes by itself, an element or nothing, and that is all: the array never makes the result
unreadable, and no entry changes what another one contributes.  A list of elements, on the other
hand, is spoiled by one bad entry.  But what it is decoded as, if it is, are the same contributions,
although its entries are decoded from the text and those of a result from values.

The entries are values.  Where the text repeats a member of an entry, the last one counts, and where
it spells no value at all, as a number past the largest double does, there is no entry to speak of.

A result has a place for the array (`Envelope`), and the rest of it is the same whatever stands
there (`Computation.decode?_fill`).
-/

namespace Plotting

open Document (ofJson Record Yields)

/-! ## Envelopes -/

/-- The names of the fields of a result. -/
def Computation.fields : List String :=
  ["status", "operation", "payload", "steps", "plot_elements", "latex"]

/-- A result with an open place for its plotted elements: an object without another member of this
name, or an array with four fields in front of the place. -/
inductive Envelope where
  | object (before after : Record) (hbefore : "plot_elements" ∉ before.map Prod.fst)
      (hafter : "plot_elements" ∉ after.map Prod.fst)
  | array (before after : List Document) (hbefore : before.length = 4)

namespace Envelope

/-- The envelope with a document in its open place. -/
def fill : Envelope → Document → Document
  | .object before after _ _, d => .obj (before ++ ("plot_elements", d) :: after)
  | .array before after _, d => .arr (before ++ d :: after)

/-- The envelope is valid otherwise: with something in its place it is a result. -/
def IsValid (E : Envelope) : Prop :=
  ∃ d c, Computation.decode? (E.fill d) = some c

variable {E : Envelope} {d : Document}

theorem isReadable_of_fill (h : (E.fill d).IsReadable) : d.IsReadable := by
  cases E with
  | object before after =>
    rw [fill, Document.IsReadable] at h
    exact Document.membersReadable_iff.mp h ("plot_elements", d)
      (List.mem_append_right before List.mem_cons_self)
  | array before after =>
    rw [fill, Document.IsReadable] at h
    exact Document.itemsReadable_iff.mp h d (List.mem_append_right before List.mem_cons_self)

/-- The record of a filled envelope has the document for one member, and whether there is a record
does not depend on it. -/
theorem record?_fill (E : Envelope) :
    ∃ (isRecord : Bool) (before after : Record), "plot_elements" ∉ before.map Prod.fst ∧
      "plot_elements" ∉ after.map Prod.fst ∧
      ∀ d, (E.fill d).record? Computation.fields =
        if isRecord = true then some (before ++ ("plot_elements", d) :: after) else none := by
  cases E with
  | object before after hbefore hafter =>
    refine ⟨Document.namesOnce Computation.fields (before ++ after), before, after, hbefore, hafter,
      fun d => ?_⟩
    rw [fill, Document.record?, (Record.inserts_append hbefore hafter d).namesOnce]
  | array before after hbefore =>
    let front : List String := ["status", "operation", "payload", "steps"]
    have hlength : front.length = before.length := hbefore.symm
    have hfront : "plot_elements" ∉ (front.zip before).map Prod.fst := by
      rw [List.map_fst_zip hlength.le]
      decide
    have hback : "plot_elements" ∉ (["latex"].zip after).map Prod.fst := by
      intro h
      obtain ⟨m, hm, hname⟩ := List.mem_map.mp h
      rw [List.mem_singleton.mp (List.of_mem_zip hm).1] at hname
      exact absurd hname (by decide)
    refine ⟨(before ++ .null :: after).length ≤ Computation.fields.length, front.zip before,
      ["latex"].zip after, hfront, hback, fun d => ?_⟩
    have hzip : Computation.fields.zip (before ++ d :: after) =
        front.zip before ++ ("plot_elements", d) :: ["latex"].zip after := List.zip_append hlength
    have hsame : (before ++ d :: after).length = (before ++ .null :: after).length := by
      rw [List.length_append, List.length_append, List.length_cons, List.length_cons]
    simp only [fill, Document.record?, hzip, hsame, decide_eq_true_eq]

end Envelope

namespace Computation

/-- What stands in the place of the plotted elements decides what these are, and nothing else. -/
theorem decode?_fill {E : Envelope} {d d' : Document} {c : Computation} {es : List Element}
    (h : decode? (E.fill d) = some c)
    (hes : decodeElements? (Document.maxNesting - 2) d' = some es) :
    decode? (E.fill d') = some { c with plotElements := es } := by
  obtain ⟨isRecord, before, after, hbefore, hafter, hrecord⟩ := E.record?_fill
  have hd := Record.inserts_append hbefore hafter d
  have hd' := Record.inserts_append hbefore hafter d'
  obtain ⟨r, hr, h⟩ := Option.bind_eq_some_iff.mp h
  rw [← fields, hrecord] at hr
  obtain ⟨status, hstatus, h⟩ := Option.bind_eq_some_iff.mp h
  obtain ⟨operation, hoperation, h⟩ := Option.bind_eq_some_iff.mp h
  obtain ⟨payload, hpayload, h⟩ := Option.bind_eq_some_iff.mp h
  obtain ⟨steps, hsteps, h⟩ := Option.bind_eq_some_iff.mp h
  obtain ⟨elements, -, h⟩ := Option.bind_eq_some_iff.mp h
  obtain ⟨latex, hlatex, h⟩ := Option.bind_eq_some_iff.mp h
  obtain rfl := Option.some.inj h
  split at hr
  · next hyes =>
    obtain rfl := Option.some.inj hr
    rw [hd.withDefault (by decide)] at hstatus hoperation hpayload hsteps hlatex
    rw [← hd'.withDefault (by decide)] at hstatus hoperation hpayload hsteps hlatex
    have helements : Record.withDefault (before ++ ("plot_elements", d') :: after) "plot_elements"
        [] (decodeElements? (Document.maxNesting - 2)) = some es := by
      rw [Record.withDefault, hd'.present]
      exact hes
    have hread := hrecord d'
    rw [fields, if_pos hyes] at hread
    simp only [decode?, hread, hstatus, hoperation, hpayload, hsteps, helements,
      hlatex, Option.bind_eq_bind, Option.bind_some, Option.pure_def]
  · cases hr

/-! ## Entries -/

/-- The plotted elements of a listing document are what its values describe by themselves. -/
theorem decodeElements?_of_lists {levels : ℕ} {d : Document} {js : List Json}
    (hd : d.IsReadable) (h : d.Lists levels js) (hlevels : levels ≤ Document.maxNesting) :
    decodeElements? levels d = some (js.filterMap Element.ofValue?) := by
  have hentries : elementsOfItems levels js = js.filterMap Element.ofValue? :=
    List.filterMap_congr fun j hj => (Element.ofValue?_eq (h.isFreeForm hd j hj) hlevels).symm
  rw [decodeElements?, Record.nullable?_eq_some rfl h]
  exact congrArg some hentries

/-- Whatever is listed in the place of the plotted elements, the result is read. -/
theorem parse_of_lists {E : Envelope} {d₀ d : Document} {c : Computation}
    (hE : decode? (E.fill d₀) = some c) {text : String} {reader : NumberReader} {js : List Json}
    (htext : Document.parse? text reader = some (E.fill d))
    (hd : d.Lists (Document.maxNesting - 2) js) :
    parse text reader = .ok { c with plotElements := js.filterMap Element.ofValue? } := by
  have hreadable : d.IsReadable :=
    Envelope.isReadable_of_fill (Document.isReadable_of_parse? htext)
  have helements := decodeElements?_of_lists hreadable hd (by decide)
  rw [parse, htext, Option.bind_some, decode?_fill hE helements]

/-! ## Independence -/

/-- **No entry affects its siblings, and lists of elements agree.**  A result that is valid otherwise
is read whatever values are listed as its plotted elements, and these are what the values describe
by themselves, each at its place; with null there are none.  An object with one kind at most, which
is a string, describes an element.  A text that spells a value is read as the element that the value
describes, or not at all if it describes none; and any text of a value that is read as an element,
and any text of an array that is read as a list of elements, is read as what the values describe. -/
theorem entries_contribute_by_themselves (reader : NumberReader) :
    (∀ E : Envelope, E.IsValid → ∃ c : Computation, c.plotElements = [] ∧
      (∀ text, Document.parse? text reader = some (E.fill .null) → parse text reader = .ok c) ∧
      ∀ text d before entries after, Document.parse? text reader = some (E.fill d) →
        d.Lists (Document.maxNesting - 2) (before ++ entries ++ after) →
          parse text reader = .ok { c with
            plotElements := before.filterMap Element.ofValue? ++
              entries.filterMap Element.ofValue? ++ after.filterMap Element.ofValue? }) ∧
    (∀ members, (Json.obj members).IsFreeForm (Document.maxNesting - 2) →
      ¬ ("kind" ∈ Json.keys members ∧ "type" ∈ Json.keys members) →
      (∀ m ∈ members, m.1 = "kind" ∨ m.1 = "type" → ∃ s, m.2 = .str s) →
        ∃ e, Element.ofValue? (.obj members) = some e) ∧
    (∀ text j, Document.parse? text reader = some (ofJson j) →
      (Element.parse text reader).toOption = Element.ofValue? j) ∧
    (∀ text d j e, Document.parse? text reader = some d →
      d.toJson? Document.maxNesting = some j → Element.parse text reader = .ok e →
        Element.ofValue? j = some e) ∧
    ∀ text d js es, Document.parse? text reader = some d → d.Lists (Document.maxNesting - 1) js →
      Element.parseList text reader = .ok es → es = js.filterMap Element.ofValue? := by
  refine ⟨?_, ?_, ?_, ?_, ?_⟩
  · rintro E ⟨d₀, c, hE⟩
    refine ⟨{ c with plotElements := [] }, rfl, fun text htext => ?_, ?_⟩
    · have hnull : decodeElements? (Document.maxNesting - 2) .null = some [] := rfl
      rw [parse, htext, Option.bind_some, decode?_fill hE hnull]
    · intro text d before entries after htext hd
      rw [parse_of_lists hE htext hd, List.filterMap_append, List.filterMap_append]
  · exact fun members hfree hone hkind =>
      Element.exists_ofValue?_obj hfree (by decide) hone hkind
  · exact fun text j htext => Element.toOption_parse_of_spells htext
  · intro text d j e htext hj h
    have hdecode : Element.decode? Document.maxNesting d = some e := by
      have hoption := congrArg Except.toOption h
      rwa [Element.toOption_parse, htext, Option.bind_some] at hoption
    exact Element.ofValue?_of_decode? (Document.isReadable_of_parse? htext) hj le_rfl hdecode
  · exact fun text d js es htext hd h => Element.eq_of_parseList (by decide) htext hd h

/-- The members of a point, with its kind under the second name. -/
def pointMembers : List (String × Json) :=
  [("data", .obj [("coords", .arr [.int 1, .int 2])]), ("type", .str "point")]

theorem isFreeForm_pointMembers : (Json.obj pointMembers).IsFreeForm 3 := by
  refine Json.isFreeForm_obj (Json.ordered_iff.mpr (by decide)) ?_
  simp [pointMembers, Json.IsFreeForm, Json.ItemsFreeForm, Json.MembersFreeForm, Json.Ordered]

/-- A result with a status and a place for its plotted elements. -/
def statusOnly : Envelope :=
  .object [("status", .str "ok")] [] (by decide) (by decide)

/-- A point between a number and a text, and in a list of its own. -/
theorem entries_contribute_by_themselves_point :
    let point := Json.obj pointMembers
    let listed := Json.arr [.int 42, point, .str "text"]
    (∃ c, parse (Json.obj [("status", .str "ok"), ("plot_elements", listed)]).compact = .ok c ∧
        c.plotElements.map Element.kind = [.point]) ∧
      (∃ e, Element.parse point.compact = .ok e ∧ Element.ofValue? point = some e) ∧
      ∃ es, Element.parseList (Json.arr [point]).compact = .ok es ∧
        es = [point].filterMap Element.ofValue? := by
  intro point listed
  obtain ⟨hresult, hobject, hvalue, htext, hlist⟩ := entries_contribute_by_themselves .bestEffort
  have hpoint : ∀ {levels}, 3 ≤ levels → point.IsFreeForm levels :=
    fun h => isFreeForm_pointMembers.mono h
  have hlisted : ∀ j ∈ [.int 42, point, .str "text"], j.IsFreeForm (Document.maxNesting - 2) := by
    simp [hpoint, Json.IsFreeForm, Document.maxNesting]
  refine ⟨?_, ?_, ?_⟩
  · obtain ⟨c, -, -, hc⟩ := hresult statusOnly ⟨.null, {}, rfl⟩
    have hprintable : (Json.obj [("status", .str "ok"), ("plot_elements", listed)]).IsPrintable :=
      ⟨trivial, (Json.isFreeForm_arr hlisted).isPrintable, trivial⟩
    have hread := hc _ (ofJson listed) [.int 42] [point] [.str "text"]
      (Document.parse?_compact hprintable (by decide)) (Document.lists_ofJson hlisted)
    have hkinds : ([Json.int 42].filterMap Element.ofValue? ++
        [Json.obj pointMembers].filterMap Element.ofValue? ++
        [Json.str "text"].filterMap Element.ofValue?).map Element.kind = [.point] := by
      decide
    exact ⟨_, hread, hkinds⟩
  · obtain ⟨e, he⟩ := hobject pointMembers (hpoint (by decide)) (by decide) (by simp [pointMembers])
    have hspells : Document.parse? point.compact = some (ofJson point) :=
      Document.parse?_compact (hpoint le_rfl).isPrintable (by decide)
    have hparse : Element.parse point.compact = .ok e := by
      have hoption := hvalue _ _ hspells
      rw [he] at hoption
      cases hread : Element.parse point.compact with
      | error _ => rw [hread] at hoption; cases hoption
      | ok e' => rw [hread] at hoption; exact congrArg _ (Option.some.inj hoption)
    exact ⟨e, hparse, htext _ _ point e hspells
      (Document.toJson?_ofJson (hpoint (by decide))) hparse⟩
  · have hsome : (Element.parseList (Json.arr [point]).compact).toOption.isSome = true := by
      decide +kernel
    have hpoints : ∀ j ∈ [point], j.IsFreeForm (Document.maxNesting - 1) :=
      List.forall_mem_singleton.mpr (hpoint (by decide))
    cases hread : Element.parseList (Json.arr [point]).compact with
    | error _ => rw [hread] at hsome; cases hsome
    | ok es =>
      exact ⟨es, rfl, hlist _ (ofJson (.arr [point])) [point] es
        (Document.parse?_compact (Json.isFreeForm_arr hpoints).isPrintable (by decide))
        (Document.lists_ofJson hpoints) hread⟩

end Computation
end Plotting
