import Plotting.Proofs.Json.Printable
import Plotting.Proofs.Json.Tokens

/-!
# Printed values are read back

Whatever blanks are put between the tokens, the reader skips them.  The loops
over items and over members follow by induction on the list, and values by
induction on their structure.  Twice the length of a text is enough fuel at
every step: reading the items of a container takes one step more than reading
the first of them, and the comma in front of the next item pays for it.
-/

namespace Plotting

open Json (Spacing print printItems printMembers printString exists_first_print)

/-- The blanks of a form are blanks. -/
structure Json.Spacing.IsBlank (s : Spacing) : Prop where
  lineBreak : ∀ depth, Document.AllBlanks (s.lineBreak depth)
  afterColon : Document.AllBlanks s.afterColon

theorem Json.Spacing.isBlank_compact : Spacing.compact.IsBlank where
  lineBreak := fun _ _ h => nomatch h
  afterColon := fun _ h => nomatch h

theorem Json.Spacing.isBlank_indented : Spacing.indented.IsBlank where
  lineBreak := by
    intro depth c hc
    rcases List.mem_cons.mp hc with rfl | hc
    · decide
    · rw [List.eq_of_mem_replicate hc]
      decide
  afterColon := by
    intro c hc
    rw [List.mem_singleton.mp hc]
    decide

namespace Document
variable {reader : NumberReader} {spacing : Spacing} {depth fuel : ℕ} {rest : List Char} {j : Json}

/-! ## Loops -/

/-- The value is read back from its text, whatever comes after it. -/
def ReadsBack (reader : NumberReader) (spacing : Spacing) (depth : ℕ) (j : Json) : Prop :=
  ∀ (fuel : ℕ) (rest : List Char), 2 * (print spacing depth j).length ≤ fuel →
    Numeral.Ends rest → readValue reader fuel (print spacing depth j ++ rest) = some (ofJson j, rest)

/-- In front of a value there is nothing to skip. -/
theorem skipBlanks_print (h : j.IsPrintable) (cs : List Char) :
    skipBlanks (print spacing depth j ++ cs) = print spacing depth j ++ cs := by
  obtain ⟨c, ds, hfirst, hblank, -⟩ := exists_first_print h spacing depth
  rw [hfirst, List.cons_append, skipBlanks_cons hblank]

theorem length_print_pos (h : j.IsPrintable) : 0 < (print spacing depth j).length := by
  obtain ⟨c, ds, hfirst, -⟩ := exists_first_print h spacing depth
  rw [hfirst, List.length_cons]
  exact Nat.succ_pos _

section Loops
variable {close : List Char}

/-- What follows an item does not go on with a number. -/
theorem ends_printItems (hclose : AllBlanks close) (js : List Json) :
    Numeral.Ends (printItems spacing depth js ++ (close ++ ']' :: rest)) := by
  cases js with
  | nil =>
    rw [printItems, List.nil_append]
    exact ends_append hclose (ends_cons (by decide) rest)
  | cons j js =>
    rw [printItems, List.cons_append]
    exact ends_cons (by decide) _

/-- Items are read one after another up to the closing bracket. -/
theorem readItems_print (hspacing : AllBlanks (spacing.lineBreak depth)) (hclose : AllBlanks close)
    (js : List Json) : ∀ (j : Json) (fuel : ℕ),
    (∀ i ∈ j :: js, i.IsPrintable ∧ ReadsBack reader spacing depth i) →
    2 * (print spacing depth j ++ printItems spacing depth js).length < fuel →
    readItems reader fuel (print spacing depth j ++
      (printItems spacing depth js ++ (close ++ ']' :: rest))) =
      some (ofItems (j :: js), rest) := by
  induction js with
  | nil =>
    intro j fuel hall hfuel
    obtain ⟨fuel, rfl⟩ : ∃ f, fuel = f + 1 := ⟨fuel - 1, by omega⟩
    rw [List.length_append] at hfuel
    have hends : Numeral.Ends (printItems spacing depth [] ++ (close ++ ']' :: rest)) :=
      ends_printItems hclose []
    have hread := (hall j List.mem_cons_self).2 fuel _ (by omega) hends
    have hafter : skipBlanks (printItems spacing depth [] ++ (close ++ ']' :: rest)) =
        ']' :: rest := by
      rw [printItems, List.nil_append, skipBlanks_append hclose, skipBlanks_cons (by decide)]
    exact readItems_bracket hread hafter
  | cons i is ih =>
    intro j fuel hall hfuel
    obtain ⟨fuel, rfl⟩ : ∃ f, fuel = f + 1 := ⟨fuel - 1, by omega⟩
    have hi := (hall i (List.mem_cons_of_mem j List.mem_cons_self)).1
    have hlength : (printItems spacing depth (i :: is)).length =
        1 + (spacing.lineBreak depth).length +
          (print spacing depth i ++ printItems spacing depth is).length := by
      simp only [printItems, List.length_cons, List.length_append]
      omega
    -- the comma in front of the next item pays for the step that turns to it
    rw [List.length_append, hlength] at hfuel
    have hends : Numeral.Ends (printItems spacing depth (i :: is) ++ (close ++ ']' :: rest)) :=
      ends_printItems hclose (i :: is)
    have hread := (hall j List.mem_cons_self).2 fuel _ (by omega) hends
    have hafter : skipBlanks (printItems spacing depth (i :: is) ++ (close ++ ']' :: rest)) =
        ',' :: (spacing.lineBreak depth ++ (print spacing depth i ++
          (printItems spacing depth is ++ (close ++ ']' :: rest)))) := by
      rw [printItems, List.cons_append, skipBlanks_cons (by decide)]
      simp only [List.append_assoc]
    have htail := ih i fuel (fun k hk => hall k (List.mem_cons_of_mem j hk)) (by omega)
    rw [readItems_comma hread hafter, skipBlanks_append hspacing, skipBlanks_print hi, htail]
    rfl

/-- The text of a member. -/
def printMember (spacing : Spacing) (depth : ℕ) (m : String × Json) : List Char :=
  printString m.1 ++ ':' :: (spacing.afterColon ++ print spacing depth m.2)

theorem printMembers_cons (spacing : Spacing) (depth : ℕ) (m : String × Json)
    (ms : List (String × Json)) :
    printMembers spacing depth (m :: ms) = ',' :: (spacing.lineBreak depth ++
      (printMember spacing depth m ++ printMembers spacing depth ms)) := by
  simp only [printMembers, printMember, List.append_assoc, List.cons_append]

theorem skipBlanks_printMember (m : String × Json) (cs : List Char) :
    skipBlanks (printMember spacing depth m ++ cs) = printMember spacing depth m ++ cs := by
  rw [printMember, printString, List.cons_append, List.cons_append, skipBlanks_cons (by decide)]

/-- The key of a member is read up to the colon, and then its value. -/
theorem exists_read_printMember (hcolon : AllBlanks spacing.afterColon) {m : String × Json}
    (hprintable : m.2.IsPrintable) (hm : ReadsBack reader spacing depth m.2) {after : List Char}
    (hends : Numeral.Ends after) (hfuel : 2 * (printMember spacing depth m).length ≤ fuel) :
    ∃ body value, printMember spacing depth m ++ after = '"' :: body ∧
      readString body = some (some m.1, ':' :: value) ∧
      readValue reader fuel (skipBlanks value) = some (ofJson m.2, after) := by
  have hshort : (print spacing depth m.2).length ≤ (printMember spacing depth m).length := by
    simp only [printMember, List.length_append, List.length_cons]
    omega
  obtain ⟨body, htext, hkey⟩ := readString_printString m.1
    (':' :: (spacing.afterColon ++ (print spacing depth m.2 ++ after)))
  refine ⟨body, _, ?_, hkey, ?_⟩
  · rw [← htext, printMember]
    simp only [List.append_assoc, List.cons_append]
  · rw [skipBlanks_append hcolon, skipBlanks_print hprintable]
    exact hm fuel after (by omega) hends

theorem ends_printMembers (hclose : AllBlanks close) (ms : List (String × Json)) :
    Numeral.Ends (printMembers spacing depth ms ++ (close ++ '}' :: rest)) := by
  cases ms with
  | nil =>
    rw [printMembers, List.nil_append]
    exact ends_append hclose (ends_cons (by decide) rest)
  | cons m ms =>
    rw [printMembers_cons, List.cons_append]
    exact ends_cons (by decide) _

/-- Members are read one after another up to the closing brace. -/
theorem readMembers_print (hspacing : AllBlanks (spacing.lineBreak depth))
    (hcolon : AllBlanks spacing.afterColon) (hclose : AllBlanks close)
    (ms : List (String × Json)) : ∀ (m : String × Json) (fuel : ℕ),
    (∀ n ∈ m :: ms, n.2.IsPrintable ∧ ReadsBack reader spacing depth n.2) →
    2 * (printMember spacing depth m ++ printMembers spacing depth ms).length < fuel →
    readMembers reader fuel (printMember spacing depth m ++
      (printMembers spacing depth ms ++ (close ++ '}' :: rest))) =
      some ((m :: ms).map fun n => (some n.1, ofJson n.2), rest) := by
  induction ms with
  | nil =>
    intro m fuel hall hfuel
    obtain ⟨fuel, rfl⟩ : ∃ f, fuel = f + 1 := ⟨fuel - 1, by omega⟩
    obtain ⟨hprintable, hm⟩ := hall m List.mem_cons_self
    rw [List.length_append] at hfuel
    have hends : Numeral.Ends (printMembers spacing depth [] ++ (close ++ '}' :: rest)) :=
      ends_printMembers hclose []
    have hafter : skipBlanks (printMembers spacing depth [] ++ (close ++ '}' :: rest)) =
        '}' :: rest := by
      rw [printMembers, List.nil_append, skipBlanks_append hclose, skipBlanks_cons (by decide)]
    have hfits : 2 * (printMember spacing depth m).length ≤ fuel := by omega
    obtain ⟨body, value, htext, hkey, hread⟩ :=
      exists_read_printMember hcolon hprintable hm hends hfits
    rw [htext]
    exact readMembers_brace hkey (skipBlanks_cons (by decide) _) hread hafter
  | cons n ns ih =>
    intro m fuel hall hfuel
    obtain ⟨fuel, rfl⟩ : ∃ f, fuel = f + 1 := ⟨fuel - 1, by omega⟩
    obtain ⟨hprintable, hm⟩ := hall m List.mem_cons_self
    have hmore : (printMembers spacing depth (n :: ns)).length =
        1 + (spacing.lineBreak depth).length +
          (printMember spacing depth n ++ printMembers spacing depth ns).length := by
      rw [printMembers_cons, List.length_cons, List.length_append]
      omega
    rw [List.length_append, hmore] at hfuel
    have hends : Numeral.Ends (printMembers spacing depth (n :: ns) ++ (close ++ '}' :: rest)) :=
      ends_printMembers hclose (n :: ns)
    have hafter : skipBlanks (printMembers spacing depth (n :: ns) ++ (close ++ '}' :: rest)) =
        ',' :: (spacing.lineBreak depth ++ (printMember spacing depth n ++
          (printMembers spacing depth ns ++ (close ++ '}' :: rest)))) := by
      rw [printMembers_cons, List.cons_append, skipBlanks_cons (by decide)]
      simp only [List.append_assoc]
    have htail := ih n fuel (fun k hk => hall k (List.mem_cons_of_mem m hk)) (by omega)
    have hfits : 2 * (printMember spacing depth m).length ≤ fuel := by omega
    obtain ⟨body, value, htext, hkey, hread⟩ :=
      exists_read_printMember hcolon hprintable hm hends hfits
    rw [htext, readMembers_comma hkey (skipBlanks_cons (by decide) _) hread hafter,
      skipBlanks_append hspacing, skipBlanks_printMember, htail]
    rfl

/-- Members whose keys are readable are an object. -/
theorem ofReadMembers_map (ms : List (String × Json)) :
    ofReadMembers (ms.map fun m => (some m.1, ofJson m.2)) = .obj (ofMembers ms) := by
  have hread : (ms.map fun m => (some m.1, ofJson m.2)).mapM
      (fun m : Option String × Document => m.1.map fun k => (k, m.2)) = some (ofMembers ms) := by
    induction ms with
    | nil => rfl
    | cons m ms ih =>
      rw [List.map_cons, List.mapM_cons, ih]
      rfl
  rw [ofReadMembers, hread]

end Loops

/-! ## Values -/

theorem readsBack_arr (hspacing : spacing.IsBlank) {items : List Json}
    (hall : ∀ i ∈ items, i.IsPrintable ∧ ReadsBack reader spacing (depth + 1) i) :
    ReadsBack reader spacing depth (.arr items) := by
  intro fuel rest hfuel hends
  cases items with
  | nil =>
    rw [print] at hfuel ⊢
    obtain ⟨fuel, rfl⟩ : ∃ f, fuel = f + 1 := ⟨fuel - 1, by simp at hfuel; omega⟩
    have hskip : skipBlanks (']' :: rest) = ']' :: rest := skipBlanks_cons (by decide) rest
    simp [readValue, hskip, ofJson, ofItems]
  | cons j js =>
    obtain ⟨hj, -⟩ := hall j List.mem_cons_self
    have htext : print spacing depth (.arr (j :: js)) ++ rest =
        '[' :: (spacing.lineBreak (depth + 1) ++ (print spacing (depth + 1) j ++
          (printItems spacing (depth + 1) js ++ (spacing.lineBreak depth ++ ']' :: rest)))) := by
      simp only [print, List.cons_append, List.append_assoc, List.nil_append]
    have hlength : (print spacing depth (.arr (j :: js))).length =
        2 + (spacing.lineBreak (depth + 1)).length +
          (print spacing (depth + 1) j ++ printItems spacing (depth + 1) js).length +
          (spacing.lineBreak depth).length := by
      simp only [print, List.length_cons, List.length_append, List.length_nil]
      omega
    obtain ⟨fuel, rfl⟩ : ∃ f, fuel = f + 1 := ⟨fuel - 1, by omega⟩
    have hskip : skipBlanks (spacing.lineBreak (depth + 1) ++ (print spacing (depth + 1) j ++
        (printItems spacing (depth + 1) js ++ (spacing.lineBreak depth ++ ']' :: rest)))) =
        print spacing (depth + 1) j ++
          (printItems spacing (depth + 1) js ++ (spacing.lineBreak depth ++ ']' :: rest)) := by
      rw [skipBlanks_append (hspacing.lineBreak _), skipBlanks_print hj]
    have hopen : (print spacing (depth + 1) j ++ (printItems spacing (depth + 1) js ++
        (spacing.lineBreak depth ++ ']' :: rest))).head? ≠ some ']' := by
      obtain ⟨c, cs, hfirst, -, hclosing⟩ := exists_first_print hj spacing (depth + 1)
      rw [hfirst]
      exact fun hc => hclosing (Option.some_inj.mp hc)
    rw [htext, readValue_bracket (by rwa [hskip]), hskip,
      readItems_print (hspacing.lineBreak _) (hspacing.lineBreak _) js j fuel hall (by omega)]
    rfl

theorem readsBack_obj (hspacing : spacing.IsBlank) {members : List (String × Json)}
    (hall : ∀ m ∈ members, m.2.IsPrintable ∧ ReadsBack reader spacing (depth + 1) m.2) :
    ReadsBack reader spacing depth (.obj members) := by
  intro fuel rest hfuel hends
  cases members with
  | nil =>
    rw [print] at hfuel ⊢
    obtain ⟨fuel, rfl⟩ : ∃ f, fuel = f + 1 := ⟨fuel - 1, by simp at hfuel; omega⟩
    have hskip : skipBlanks ('}' :: rest) = '}' :: rest := skipBlanks_cons (by decide) rest
    simp [readValue, hskip, ofJson, ofMembers]
  | cons m ms =>
    have htext : print spacing depth (.obj (m :: ms)) ++ rest =
        '{' :: (spacing.lineBreak (depth + 1) ++ (printMember spacing (depth + 1) m ++
          (printMembers spacing (depth + 1) ms ++ (spacing.lineBreak depth ++ '}' :: rest)))) := by
      simp only [print, printMember, List.cons_append, List.append_assoc, List.nil_append]
    have hlength : (print spacing depth (.obj (m :: ms))).length =
        2 + (spacing.lineBreak (depth + 1)).length +
          (printMember spacing (depth + 1) m ++ printMembers spacing (depth + 1) ms).length +
          (spacing.lineBreak depth).length := by
      simp only [print, printMember, List.length_cons, List.length_append, List.length_nil]
      omega
    obtain ⟨fuel, rfl⟩ : ∃ f, fuel = f + 1 := ⟨fuel - 1, by omega⟩
    have hskip : skipBlanks (spacing.lineBreak (depth + 1) ++ (printMember spacing (depth + 1) m ++
        (printMembers spacing (depth + 1) ms ++ (spacing.lineBreak depth ++ '}' :: rest)))) =
        printMember spacing (depth + 1) m ++
          (printMembers spacing (depth + 1) ms ++ (spacing.lineBreak depth ++ '}' :: rest)) := by
      rw [skipBlanks_append (hspacing.lineBreak _), skipBlanks_printMember]
    have hopen : (printMember spacing (depth + 1) m ++ (printMembers spacing (depth + 1) ms ++
        (spacing.lineBreak depth ++ '}' :: rest))).head? ≠ some '}' := by
      rw [printMember, printString]
      exact fun hc => absurd (Option.some_inj.mp hc) (by decide)
    rw [htext, readValue_brace (by rwa [hskip]), hskip, readMembers_print (hspacing.lineBreak _)
      hspacing.afterColon (hspacing.lineBreak _) ms m fuel hall (by omega), Option.map_some,
      ofReadMembers_map]
    rfl

theorem readsBack_scalar (h : j.IsPrintable) (hscalar : ∀ fuel rest, Numeral.Ends rest →
      readValue reader (fuel + 1) (print spacing depth j ++ rest) = some (ofJson j, rest)) :
    ReadsBack reader spacing depth j := by
  intro fuel rest hfuel hends
  have hpos : 0 < (print spacing depth j).length := length_print_pos h
  obtain ⟨fuel, rfl⟩ : ∃ f, fuel = f + 1 := ⟨fuel - 1, by omega⟩
  exact hscalar fuel rest hends

/-- A number is found by its first character. -/
theorem readsBack_number (h : j.IsPrintable)
    (hfirst : ∃ c cs, print spacing depth j = c :: cs ∧ (c.isDigit = true ∨ c = '-'))
    (hnumber : ∀ rest, Numeral.Ends rest →
      readNumber reader (print spacing depth j ++ rest) = some (ofJson j, rest)) :
    ReadsBack reader spacing depth j := by
  refine readsBack_scalar h fun fuel rest hends => ?_
  obtain ⟨c, cs, htext, hc⟩ := hfirst
  have hread := hnumber rest hends
  rw [htext, List.cons_append] at hread ⊢
  rw [readValue_number hc, hread]

/-- A number of a printable value is read back if the reader keeps it. -/
theorem readsBack_float {x : Float} (hx : x.isFinite = true) (hkept : reader.Keeps x) :
    ReadsBack reader spacing depth (.float x) := by
  refine readsBack_number hx ?_ fun rest hends => ?_ <;> rw [print]
  · exact exists_first_write hx
  · rw [readNumber_write hx hends, ofNumeral_of_keeps hx hkept, ofJson]

theorem readsBack_int {n : ℤ} (hlow : -2 ^ 63 ≤ n) (hhigh : n < 2 ^ 64) :
    ReadsBack reader spacing depth (.int n) := by
  refine readsBack_number ⟨hlow, hhigh⟩ ?_ fun rest hends => ?_ <;> rw [print]
  · exact exists_first_printInt n
  · exact readNumber_printInt hlow hhigh hends

mutual

/-- A printable value is read back from its text if its numbers are kept. -/
theorem readsBack_of_isPrintable (hspacing : spacing.IsBlank) :
    ∀ (j : Json) (depth : ℕ), j.IsPrintable → reader.KeepsAll j → ReadsBack reader spacing depth j
  | .null, _, h, _ => readsBack_scalar h fun _ _ _ => by simp [print, readValue, ofJson]
  | .bool true, _, h, _ => readsBack_scalar h fun _ _ _ => by simp [print, readValue, ofJson]
  | .bool false, _, h, _ => readsBack_scalar h fun _ _ _ => by simp [print, readValue, ofJson]
  | .int n, _, h, _ => by
    rw [Json.IsPrintable] at h
    exact readsBack_int h.1 h.2
  | .float x, _, h, hkept => by
    rw [Json.IsPrintable] at h
    exact readsBack_float h (NumberReader.keepsAll_float.mp hkept)
  | .str s, _, h, _ => readsBack_scalar h fun _ rest _ => by
    obtain ⟨body, htext, hread⟩ := readString_printString s rest
    rw [print, htext]
    exact readValue_quote hread
  | .arr items, depth, h, hkept => by
    rw [Json.IsPrintable] at h
    exact readsBack_arr hspacing (readsBack_items hspacing items (depth + 1) h
      (NumberReader.keepsAll_arr items |>.mp hkept))
  | .obj members, depth, h, hkept => by
    rw [Json.IsPrintable] at h
    exact readsBack_obj hspacing (readsBack_members hspacing members (depth + 1) h
      (NumberReader.keepsAll_obj members |>.mp hkept))

theorem readsBack_items (hspacing : spacing.IsBlank) :
    ∀ (items : List Json) (depth : ℕ), Json.ItemsPrintable items →
      (∀ i ∈ items, reader.KeepsAll i) →
        ∀ i ∈ items, i.IsPrintable ∧ ReadsBack reader spacing depth i
  | [], _, _, _ => fun _ hi => nomatch hi
  | j :: js, depth, h, hkept => by
    rw [Json.ItemsPrintable] at h
    obtain ⟨hkept, hmore⟩ := List.forall_mem_cons.mp hkept
    have hj := readsBack_of_isPrintable hspacing j depth h.1 hkept
    exact List.forall_mem_cons.mpr ⟨⟨h.1, hj⟩, readsBack_items hspacing js depth h.2 hmore⟩

theorem readsBack_members (hspacing : spacing.IsBlank) :
    ∀ (members : List (String × Json)) (depth : ℕ), Json.MembersPrintable members →
      (∀ m ∈ members, reader.KeepsAll m.2) →
        ∀ m ∈ members, m.2.IsPrintable ∧ ReadsBack reader spacing depth m.2
  | [], _, _, _ => fun _ hm => nomatch hm
  | (_, j) :: ms, depth, h, hkept => by
    rw [Json.MembersPrintable] at h
    obtain ⟨hkept, hmore⟩ := List.forall_mem_cons.mp hkept
    have hj := readsBack_of_isPrintable hspacing j depth h.1 hkept
    exact List.forall_mem_cons.mpr ⟨⟨h.1, hj⟩, readsBack_members hspacing ms depth h.2 hmore⟩

end

/-! ## Whole texts -/

/-- The text of a printable value whose numbers are kept spells this value and nothing else. -/
theorem parse?_print (hspacing : spacing.IsBlank) (h : j.IsPrintable) (hkept : reader.KeepsAll j) :
    parse? (String.ofList (print spacing 0 j)) reader = some (ofJson j) := by
  have hskip : skipBlanks (print spacing 0 j ++ []) = print spacing 0 j ++ [] :=
    skipBlanks_print h []
  have hread := readsBack_of_isPrintable hspacing j 0 h hkept
    (2 * (print spacing 0 j).length + 1) [] (by omega) (fun _ hc => nomatch hc)
  rw [List.append_nil] at hskip hread
  simp only [parse?, String.toList_ofList, hskip, hread, Option.bind_eq_bind, Option.bind_some]
  exact if_pos rfl

theorem parse?_compact (h : j.IsPrintable) (hkept : reader.KeepsAll j) :
    parse? j.compact reader = some (ofJson j) :=
  parse?_print Json.Spacing.isBlank_compact h hkept

theorem parse?_pretty (h : j.IsPrintable) (hkept : reader.KeepsAll j) :
    parse? j.pretty reader = some (ofJson j) :=
  parse?_print Json.Spacing.isBlank_indented h hkept

end Document
end Plotting
