import TypedConfig.Proofs.Composing
import TypedConfig.Proofs.Rendering
import TypedConfig.Sample.Schemas

/-!
The lines of a report. Violations stand on a line each exactly if no violation has a line break in
its text. The text of a violation quotes what the schema, the caller and the document say and escapes
no line breaks, so breaks are quoted with the rest; they come from nowhere else
(`report_lines_iff_unbroken`).
-/
namespace TypedConfig
open TypedConfig.Composition (Selects)
open Value (Part)

/-- The lines of a text: what stands before, between and behind its line breaks. -/
def lines (text : String) : List String := (text.toList.splitOn '\n').map String.ofList

/-- A text without line breaks. -/
def Unbroken (text : String) : Prop := '\n' ∉ text.toList

instance (text : String) : Decidable (Unbroken text) := inferInstanceAs (Decidable ('\n' ∉ text.toList))

/-! ### Lines of texts -/

theorem length_splitOn (cs : List Char) : (cs.splitOn '\n').length = cs.count '\n' + 1 := by
  induction cs with
  | nil => rfl
  | cons c cs ih =>
    rw [List.splitOn_cons_eq_if_modifyHead]
    by_cases isBreak : c = '\n'
    · simp [isBreak, ih]
    · simp [isBreak, ih]

/-- A text has one line more than it has line breaks. -/
theorem length_lines (text : String) : (lines text).length = text.toList.count '\n' + 1 := by
  rw [lines, List.length_map, length_splitOn]

theorem length_lines_eq_one_iff {text : String} : (lines text).length = 1 ↔ Unbroken text := by
  rw [length_lines, Unbroken, ← List.count_eq_zero]
  omega

theorem lines_of_unbroken {text : String} (unbroken : Unbroken text) : lines text = [text] := by
  rw [lines, List.splitOn_eq_singleton unbroken, List.map_singleton, String.ofList_toList]

theorem lines_break (front back : String) : lines (front ++ "\n" ++ back) = lines front ++ lines back := by
  have characters : (front ++ "\n" ++ back).toList = front.toList ++ '\n' :: back.toList := by simp
  rw [lines, characters, List.splitOn_append_cons_self, List.map_append]
  rfl

@[simp] theorem unbroken_append {front back : String} :
    Unbroken (front ++ back) ↔ Unbroken front ∧ Unbroken back := by
  simp [Unbroken]

/-! ### Lines of reports -/

namespace Violation

theorem unbroken_line_iff {v : Violation} : Unbroken v.line ↔ Unbroken v.text := by
  have front : Unbroken " - " := by decide
  simp [line, front]

/-- A report is the lines of its violations, however many each of them has. -/
theorem lines_report {vs : List Violation} (some : vs ≠ []) :
    lines (report vs) = vs.flatMap fun v => lines v.line := by
  induction vs with
  | nil => exact absurd rfl some
  | cons v vs ih =>
    cases vs with
    | nil => simp [report]
    | cons w vs =>
      have front : report (v :: w :: vs) = v.line ++ "\n" ++ report (w :: vs) := by simp [report]
      rw [front, lines_break, ih (List.cons_ne_nil _ _)]
      rfl

theorem length_flatMap_lines_ge (vs : List Violation) : vs.length ≤ (vs.flatMap fun v => lines v.line).length := by
  induction vs with
  | nil => rfl
  | cons v vs ih =>
    rw [List.flatMap_cons, List.length_append, length_lines, List.length_cons]
    omega

theorem length_flatMap_lines_iff (vs : List Violation) :
    (vs.flatMap fun v => lines v.line).length = vs.length ↔ ∀ v ∈ vs, Unbroken v.text := by
  induction vs with
  | nil => simp
  | cons v vs ih =>
    have rest := length_flatMap_lines_ge vs
    have first := length_lines v.line
    rw [List.forall_mem_cons, ← ih, ← unbroken_line_iff, ← length_lines_eq_one_iff, List.flatMap_cons,
      List.length_append, List.length_cons]
    omega

theorem flatMap_lines_of_unbroken {vs : List Violation} (unbroken : ∀ v ∈ vs, Unbroken v.text) :
    (vs.flatMap fun v => lines v.line) = vs.map line := by
  rw [List.map_eq_flatMap]
  refine List.flatMap_congr fun v member => ?_
  exact lines_of_unbroken (unbroken_line_iff.mpr (unbroken v member))

end Violation

/-! ### Literals -/

namespace Value

theorem unbroken_escapeQuotes {cs : List Char} (unbroken : '\n' ∉ cs) : '\n' ∉ escapeQuotes cs := by
  intro member
  obtain ⟨c, inside, escaped⟩ := List.mem_flatMap.mp member
  split at escaped
  · next quote => simp [quote] at escaped
  · exact unbroken (List.mem_singleton.mp escaped ▸ inside)

theorem unbroken_separated {css : List (List Char)} (each : ∀ cs ∈ css, '\n' ∉ cs) : '\n' ∉ separated css := by
  cases css with
  | nil => simp [separated]
  | cons cs css =>
    intro member
    rcases List.mem_append.mp member with first | later
    · exact each cs List.mem_cons_self first
    · obtain ⟨ds, other, inside⟩ := List.mem_flatMap.mp later
      rcases List.mem_append.mp inside with comma | text
      · exact absurd comma (by decide)
      · exact each ds (List.mem_cons_of_mem _ other) text

/-- A literal has line breaks from strings only. -/
theorem unbroken_literalChars (v : Value) :
    (∀ s, Part (.string s) v → Unbroken s) → '\n' ∉ v.literalChars := by
  induction v using Value.induct with
  | null => intro _; decide
  | boolean b => intro _; cases b <;> decide
  | integer n =>
    intro _ member
    exact absurd (isIntegerChar_of_mem member) (by decide)
  | float x =>
    intro _ member
    exact absurd (Binary.Layout.isNumberChar_of_mem_text _ x _ member) (by decide)
  | string s =>
    intro strings
    have inside := unbroken_escapeQuotes (strings s (.whole _))
    simp [literalChars_string, inside]
  | sequence vs ih =>
    intro strings
    have elements : '\n' ∉ separated (vs.map literalChars) := unbroken_separated <|
      List.forall_mem_map.mpr fun v member => ih v member fun s part => strings s (.element member part)
    simp [literalChars_sequence, elements]
  | mapping es ih =>
    intro strings
    have entries : '\n' ∉ separated (es.map entryChars) := by
      refine unbroken_separated (List.forall_mem_map.mpr fun e member => ?_)
      have key := (ih e member).1 fun s part => strings s (.key member part)
      have value := (ih e member).2 fun s part => strings s (.value member part)
      simp [entryChars, key, value]
    simp [literalChars_mapping, entries]

theorem unbroken_literal {v : Value} (strings : ∀ s, Part (.string s) v → Unbroken s) : Unbroken v.literal := by
  rw [Unbroken, literal, String.toList_ofList]
  exact unbroken_literalChars v strings

theorem unbroken_typeName (v : Value) : Unbroken v.typeName := by
  cases v <;> (simp only [typeName]; decide)

end Value

/-! ### Mismatches -/

namespace Conformance

/-- The strings in the keys of the mappings that a check passes. -/
def KeyString (v : Value) (t : TypeDescriptor) (s : String) : Prop :=
  ∃ place entries keyType valueType, Visited v t place (.mapping entries) (.mapping keyType valueType) ∧
    ∃ e ∈ entries, Part (.string s) e.1

theorem KeyString.up {v w : Value} {t u : TypeDescriptor} {b : Branch} {s : String} (leads : b.Leads v t w u)
    (below : KeyString w u s) : KeyString v t s := by
  obtain ⟨place, entries, keyType, valueType, visited, inKey⟩ := below
  exact ⟨b :: place, entries, keyType, valueType, .down leads visited, inKey⟩

theorem not_keyString_scalar {v : Value} {type : ScalarType} {s : String} : ¬ KeyString v (.scalar type) s := by
  rintro ⟨place, entries, keyType, valueType, visited, _⟩
  cases visited with
  | down leads _ => cases leads

theorem unbroken_segment {v w : Value} {t u : TypeDescriptor} {b : Branch} (leads : b.Leads v t w u)
    (keys : ∀ s, KeyString v t s → Unbroken s) : Unbroken b.segment := by
  have bracketed {inside : String} (unbroken : Unbroken inside) : Unbroken ("[" ++ inside ++ "]") := by
    simp only [unbroken_append]
    exact ⟨⟨by decide, unbroken⟩, by decide⟩
  cases leads with
  | @element vs t i w there =>
    refine bracketed fun member => ?_
    have digits : (toString i).toList = integerChars i := by simp [integerChars_natCast]
    exact absurd (isIntegerChar_of_mem (digits ▸ member)) (by decide)
  | entryKey there =>
    exact bracketed (Value.unbroken_literal fun s part =>
      keys s ⟨[], _, _, _, .here _ _, _, List.mem_of_getElem? there, part⟩)
  | entryValue there =>
    exact bracketed (Value.unbroken_literal fun s part =>
      keys s ⟨[], _, _, _, .here _ _, _, List.mem_of_getElem? there, part⟩)
  | inner => decide

theorem unbroken_type_of_leads {v w : Value} {t u : TypeDescriptor} {b : Branch} (leads : b.Leads v t w u)
    (type : Unbroken t.text) : Unbroken u.text := by
  cases leads <;> simp_all [TypeDescriptor.text]

/-- What a mismatch quotes: keys on the way to it, and a type on that way. -/
theorem unbroken_finding {p : Place} :
    ∀ {t shown : TypeDescriptor} {v : Value} {f : Finding}, f.place = p → f ∈ findings t shown v →
      (∀ s, KeyString v t s → Unbroken s) → Unbroken t.text → Unbroken shown.text →
      Unbroken f.place.text ∧ Unbroken f.shown.text := by
  induction p with
  | nil =>
    intro t shown v f atRoot member _ _ named
    rcases mem_findings_iff.mp member with ⟨_, rfl⟩ | ⟨b, w, s, g, _, _, rfl⟩
    · exact ⟨(by decide : Unbroken (Place.text [])), named⟩
    · cases atRoot
  | cons c p ih =>
    intro t shown v f place member keys type named
    rcases mem_findings_iff.mp member with ⟨_, rfl⟩ | ⟨b, w, u, g, leads, found, rfl⟩
    · cases place
    · have inner := unbroken_type_of_leads leads type
      have shownBelow : Unbroken (b.named shown u).text := by cases b <;> assumption
      obtain ⟨below, deeper⟩ :=
        ih (List.cons.inj place).2 found (fun s inKey => keys s (inKey.up leads)) inner shownBelow
      refine ⟨?_, deeper⟩
      have front : Place.text (b :: g.place) = b.segment ++ g.place.text := by simp [Place.text, String.join_cons]
      simp only [Finding.under, front, unbroken_append]
      exact ⟨unbroken_segment leads keys, below⟩

theorem unbroken_check {context : Context} {v : Value} {t : TypeDescriptor} (place : Unbroken context.text)
    (type : Unbroken t.text) (keys : ∀ s, KeyString v t s → Unbroken s) :
    ∀ problem ∈ checkInto context v t [], Unbroken problem.text := by
  intro problem member
  have found : problem ∈ (findings t t v).map (Finding.violation context []) :=
    check_eq_map_findings context v t ▸ member
  obtain ⟨f, inside, rfl⟩ := List.mem_map.mp found
  obtain ⟨route, named⟩ := unbroken_finding rfl inside keys type type
  rw [Finding.violation_root]
  simp only [Violation.text, Finding.message, unbroken_append]
  refine ⟨⟨place, by decide⟩, ⟨⟨⟨⟨?_, by decide⟩, Value.unbroken_typeName _⟩, by decide⟩, named⟩, by decide⟩
  split
  · decide
  · simp only [unbroken_append]
    exact ⟨route, by decide⟩

end Conformance

/-! ### Problems -/

namespace Validation
open Conformance

/-- What the problems of a document can quote: the caller's variant and separator, the names and types of the
    schema, the labels that the document gives to sections, and strings in keys of checked values. -/
inductive Quoted (schema : Schema) (data : Value) (variant separator : String) : String → Prop
  | variant : Quoted schema data variant separator variant
  | separator : Quoted schema data variant separator separator
  | sectionName {s : Section} (declared : s ∈ schema.sections) : Quoted schema data variant separator s.name
  | keyName {s : Section} {key : Key} (declared : s ∈ schema.sections) (asked : key ∈ s.keys.entries.map Prod.snd) :
      Quoted schema data variant separator key.name
  | typeName {s : Section} {key : Key} (declared : s ∈ schema.sections) (asked : key ∈ s.keys.entries.map Prod.snd) :
      Quoted schema data variant separator key.type.text
  | label {root selection : Mapping} {s : Section} {label : String}
      (selects : Selects data (selectionName variant separator) root selection) (declared : s ∈ schema.sections)
      (chosen : selection.get? s.name = some (.string label)) : Quoted schema data variant separator label
  | inKey {root selection entries : Mapping} {s : Section} {label : String} {key : Key} {v : Value} {string : String}
      (selects : Selects data (selectionName variant separator) root selection) (declared : s ∈ schema.sections)
      (chosen : selection.get? s.name = some (.string label))
      (held : root.get? (entryName s.name separator label) = some (.mapping entries))
      (asked : key ∈ s.keys.entries.map Prod.snd) (there : entries.get? key.name = some v)
      (inKey : KeyString v key.type string) : Quoted schema data variant separator string

theorem unbroken_scalar {context : Context} {v : Value} {type : ScalarType} (place : Unbroken context.text)
    (name : Unbroken type.name) : ∀ problem ∈ checkInto context v (.scalar type) [], Unbroken problem.text :=
  unbroken_check place name fun _ inKey => absurd inKey not_keyString_scalar

theorem unbroken_ofKey {sectionName keyName : String} (first : Unbroken sectionName) (second : Unbroken keyName) :
    Unbroken (Context.ofKey sectionName keyName).text := by
  simp only [Context.ofKey, Context.text, unbroken_append]
  exact ⟨⟨⟨first, by decide⟩, second⟩, by decide⟩

theorem unbroken_text {context : Context} {message : String} (place : Unbroken context.text)
    (told : Unbroken message) : Unbroken (Violation.text ⟨context, message⟩) := by
  simp only [Violation.text, unbroken_append]
  exact ⟨⟨place, by decide⟩, told⟩

theorem unbroken_validateKey {entries : Mapping} {fullName : String} {key : Key} (entry : Unbroken fullName)
    (name : Unbroken key.name) (type : Unbroken key.type.text)
    (keys : ∀ v, entries.get? key.name = some v → ∀ s, KeyString v key.type s → Unbroken s) :
    ∀ problem ∈ validateKey entries fullName [] key, Unbroken problem.text := by
  have place := unbroken_ofKey entry name
  unfold validateKey
  cases there : Mapping.get? entries key.name with
  | none => exact List.forall_mem_singleton.mpr (unbroken_text place (by decide))
  | some v => exact unbroken_check place type (keys v there)

variable {schema : Schema} {data : Value} {variant separator : String}

theorem unbroken_selectionName (quiet : ∀ text, Quoted schema data variant separator text → Unbroken text) :
    Unbroken (selectionName variant separator) := by
  simp only [selectionName, unbroken_append]
  exact ⟨⟨by decide, quiet _ .separator⟩, quiet _ .variant⟩

theorem unbroken_validateSlot (quiet : ∀ text, Quoted schema data variant separator text → Unbroken text)
    {root selection : Mapping} (selects : Selects data (selectionName variant separator) root selection) {s : Section}
    (declared : s ∈ schema.sections) :
    ∀ problem ∈ validateSlot root selection (selectionName variant separator) separator [] s,
      Unbroken problem.text := by
  have name := quiet _ (.sectionName declared)
  have place := unbroken_ofKey (unbroken_selectionName quiet) name
  unfold validateSlot
  cases chosen : selection.get? s.name with
  | none => exact List.forall_mem_singleton.mpr (unbroken_text place (by decide))
  | some value =>
    cases value with
    | string label =>
      have entry : Unbroken (entryName s.name separator label) := by
        simp only [entryName, unbroken_append]
        exact ⟨⟨name, quiet _ .separator⟩, quiet _ (.label selects declared chosen)⟩
      dsimp only
      cases held : root.get? (entryName s.name separator label) with
      | none =>
        refine List.forall_mem_singleton.mpr (unbroken_text place ?_)
        simp only [unbroken_append]
        exact ⟨⟨by decide, entry⟩, by decide⟩
      | some found =>
        cases found with
        | mapping entries =>
          dsimp only
          rw [validateSection_mapping, List.nil_append]
          intro problem member
          obtain ⟨key, asked, inside⟩ := List.mem_flatMap.mp member
          exact unbroken_validateKey entry (quiet _ (.keyName declared asked)) (quiet _ (.typeName declared asked))
            (fun v there s inKey => quiet s (.inKey selects declared chosen held asked there inKey)) problem inside
        | _ => exact unbroken_scalar entry (by decide)
    | _ => exact unbroken_scalar place (by decide)

/-- A problem has line breaks from the texts that it quotes only. -/
theorem unbroken_violations (quiet : ∀ text, Quoted schema data variant separator text → Unbroken text) :
    ∀ problem ∈ violations schema data variant separator, Unbroken problem.text := by
  have selectedBy := unbroken_selectionName quiet
  cases data with
  | mapping root =>
    cases found : Mapping.get? root (selectionName variant separator) with
    | none =>
      simp only [violations, found]
      exact List.forall_mem_singleton.mpr (unbroken_text selectedBy (by decide))
    | some value =>
      cases value with
      | mapping selection =>
        rw [violations_of_selection found]
        intro problem member
        obtain ⟨s, declared, inside⟩ := List.mem_flatMap.mp member
        exact unbroken_validateSlot quiet ⟨rfl, found⟩ declared problem inside
      | _ =>
        simp only [violations, found]
        exact unbroken_scalar selectedBy (by decide)
  | _ => exact unbroken_scalar (by decide) (by decide)

/-- A report has a line for each problem exactly if no problem has a line break in its text. A problem has line breaks
    only from texts that the schema, the caller and the document give, so without breaks in these the lines are the
    problems, in order. -/
theorem report_lines_iff_unbroken (schema : Schema) (data : Value) (variant separator : String)
    (problems : violations schema data variant separator ≠ []) :
    let vs := violations schema data variant separator
    (lines (Violation.report vs) = vs.map (fun v => " - " ++ v.text) ↔ ∀ v ∈ vs, Unbroken v.text) ∧
    ((lines (Violation.report vs)).length = vs.length ↔ ∀ v ∈ vs, Unbroken v.text) ∧
    ((∀ text, Quoted schema data variant separator text → Unbroken text) → ∀ v ∈ vs, Unbroken v.text) := by
  intro vs
  rw [Violation.lines_report problems]
  have counted := Violation.length_flatMap_lines_iff vs
  refine ⟨⟨fun same => ?_, Violation.flatMap_lines_of_unbroken⟩, counted, unbroken_violations⟩
  exact counted.mp (by rw [same, List.length_map])

/-- A label that the document does not have, and no label. -/
theorem report_lines_iff_unbroken_service :
    let data : Value := .mapping [(.string "compose_x", .mapping [(.string "server", .string "a")])]
    let vs := violations Sample.service data "x" "_"
    vs ≠ [] ∧ (∀ text, Quoted Sample.service data "x" "_" text → Unbroken text) ∧
      lines (Violation.report vs) =
        [" - compose_x[server] => \"server_a\" not found", " - compose_x[db] => missing key"] := by
  intro data vs
  have problems : vs ≠ [] := by decide +kernel
  have named : ∀ s ∈ Sample.service.sections, Unbroken s.name ∧
      ∀ key ∈ s.keys.entries.map Prod.snd, Unbroken key.name ∧ Unbroken key.type.text := by decide +kernel
  have labelled : ∀ root selection, Selects data "compose_x" root selection → ∀ s ∈ Sample.service.sections,
      ∀ label, selection.get? s.name = some (.string label) → s.name = "server" ∧ label = "a" ∧
        root.get? "server_a" = none := by
    rintro root selection ⟨whole, found⟩ s declared label chosen
    cases (Value.mapping.inj whole)
    cases found
    have sections : Sample.service.sections = [Sample.server, Sample.database] := rfl
    rw [sections, List.mem_pair] at declared
    rcases declared with rfl | rfl
    · cases chosen
      exact ⟨rfl, rfl, rfl⟩
    · cases chosen
  have quiet : ∀ text, Quoted Sample.service data "x" "_" text → Unbroken text := by
    intro text quoted
    cases quoted with
    | variant => decide
    | separator => decide
    | sectionName declared => exact (named _ declared).1
    | keyName declared asked => exact ((named _ declared).2 _ asked).1
    | typeName declared asked => exact ((named _ declared).2 _ asked).2
    | label selects declared chosen =>
      obtain ⟨_, rfl, _⟩ := labelled _ _ selects _ declared _ chosen
      decide
    | inKey selects declared chosen held =>
      obtain ⟨name, rfl, absent⟩ := labelled _ _ selects _ declared _ chosen
      rw [name] at held
      cases absent.symm.trans held
  obtain ⟨exactly, _, sources⟩ := report_lines_iff_unbroken Sample.service data "x" "_" problems
  refine ⟨problems, quiet, (exactly.mpr (sources quiet)).trans ?_⟩
  decide +kernel

/-- A line break in a label. The report of the one problem is also that of two problems of another document. -/
theorem report_lines_forged :
    let schema := Schema.empty.declare "server" Sample.server
    let label := "a\" not found\n - compose_x[db] => \"db_b"
    let data : Value := .mapping [(.string "compose_x", .mapping [(.string "server", .string label)])]
    let other : Value := .mapping [(.string "compose_x",
      .mapping [(.string "server", .string "a"), (.string "db", .string "b")])]
    let vs := violations schema data "x" "_"
    vs.length = 1 ∧ (lines (Violation.report vs)).length = 2 ∧
      Violation.report vs = Violation.report (violations Sample.service other "x" "_") := by
  decide +kernel

end Validation
end TypedConfig
