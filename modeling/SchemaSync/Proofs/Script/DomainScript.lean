import SchemaSync.Plan.Difference
import SchemaSync.Proofs.Script.Reading

/-! The script of a domain reads back as the domain it is written for. -/

namespace SchemaSync

open Text Script

namespace Script

/-- Plain names and types can be put before bare text. -/
theorem all_safe {cs : List Char} (plain : cs.all isTypeChar = true) :
    cs.all (fun c => c != '\'' && c != '-' && c != '/') = true := by
  refine List.all_eq_true.mpr fun c member => ?_
  have here := List.all_eq_true.mp plain c member
  simp only [Bool.and_eq_true, bne_iff_ne]
  refine ⟨⟨?_, ?_⟩, ?_⟩ <;> (rintro rfl; cases here)

theorem all_isTypeChar {cs : List Char} (name : IsName cs) : cs.all isTypeChar = true := by
  refine List.all_eq_true.mpr fun c member => ?_
  rw [isTypeChar, name.isNameChar member]
  rfl

theorem solid_append {cs : List Char} (name : ∃ c rest, cs = c :: rest ∧ isNameChar c = true)
    (rest : List Char) : ∀ c ∈ (cs ++ rest).head?, isBlank c = false := by
  obtain ⟨c, more, rfl, plain⟩ := name
  rintro c ⟨⟩
  exact isBlank_of_isNameChar plain

end Script

namespace Domain

variable {d : Domain}

/-- A domain whose script reads back. -/
structure Canonical (d : Domain) : Prop where
  name : IsName d.name.toList
  type : ∃ base parameters, IsType base parameters d.dataType.toList
  default : ∀ v ∈ d.defaultValue, IsDefault v.toList

def lineFed (d : Domain) : Domain :=
  { d with defaultValue := d.defaultValue.map Text.lineFed }

theorem Canonical.lineFed (canonical : d.Canonical) : d.lineFed.Canonical where
  name := canonical.name
  type := canonical.type
  default := readable_lineFed canonical.default

theorem script_toList (readable : ∀ v ∈ d.defaultValue, IsDefault v.toList) : d.script.toList =
    domainText d.name.toList d.dataType.toList
      (clauseChars (d.defaultValue.map String.toList) d.isNullable true) := by
  unfold script domainText
  rw [← clauseChars_semicolon, ← attributes_eq readable]
  simp only [String.toList_append, List.append_assoc]
  rfl

private theorem type_plain (canonical : d.Canonical) : d.dataType.toList.all isTypeChar = true := by
  obtain ⟨base, parameters, type⟩ := canonical.type
  exact type.all_isTypeChar

private theorem bare_script (canonical : d.Canonical) : Bare d.script.toList := by
  have clauses : Bare (clauseChars (d.defaultValue.map String.toList) d.isNullable true) :=
    bare_clauseChars (readable_map canonical.default)
  rw [script_toList canonical.default]
  exact (IsIdentifier.of_isName canonical.name).bare_domainText (clauses.prepend (all_safe (type_plain canonical)))

theorem lineFed_script (canonical : d.Canonical) : Text.lineFed d.script = d.lineFed.script := by
  have plain {cs : List Char} (plain : cs.all isTypeChar = true) : '\r' ∉ cs := fun member => by
    cases List.all_eq_true.mp plain _ member
  have name := plain (all_isTypeChar canonical.name)
  have type := plain (type_plain canonical)
  rw [← String.toList_inj, Text.lineFed, String.toList_ofList, script_toList canonical.default,
    script_toList canonical.lineFed.default]
  unfold domainText
  rw [withLineFeeds_prepend (by decide), withLineFeeds_prepend name, withLineFeeds_prepend (by decide),
    withLineFeeds_prepend type, withLineFeeds_clauseChars canonical.default]
  rfl

/-- The script of a domain gives the domain, with the numbers that its type shows. -/
theorem ofScript_script (canonical : d.Canonical) {base : List Char} {parameters : Option (List Char)}
    (type : IsType base parameters d.dataType.toList) : Domain.ofScript d.script =
      .ok { d with
        length := (numericParameters parameters).1
        precision := (numericParameters parameters).1
        scale := (numericParameters parameters).2 } := by
  have readable := readable_map canonical.default
  have default : (d.defaultValue.map String.toList).map String.ofList = d.defaultValue := by
    cases d.defaultValue <;> simp
  have text : d.script = String.ofList (domainText d.name.toList d.dataType.toList
      (clauseChars (d.defaultValue.map String.toList) d.isNullable true)) := by
    rw [← script_toList canonical.default, String.ofList_toList]
  have bare := bare_script canonical
  rw [script_toList canonical.default] at bare
  have last : ∀ e ∈ (d.dataType.toList ++ clauseChars (d.defaultValue.map String.toList) d.isNullable true).getLast?,
      isBlank e = false := last_clauseChars readable type.last
  rw [text, ofScript_domainText (.of_isName canonical.name) (typeReading?_append type.typeReading?_eq endsType_clauseChars)
      last bare,
    canonical.name.upperChars_eq, canonicalType_eq type, allowsNull_clauseChars readable,
    declaredDefault_clauseChars readable, default, String.ofList_toList, String.ofList_toList, create, dif_pos d.named]

/-- The script of a domain with line feeds gives a domain that differs at most in the line ends of its
default, as far as a comparison looks. -/
theorem ofScript_lineFed (canonical : d.Canonical) : ∃ e, Domain.ofScript (Text.lineFed d.script) = .ok e ∧
    e.name = d.name ∧ e.attributes = d.lineFed.attributes := by
  obtain ⟨base, parameters, type⟩ := canonical.type
  rw [lineFed_script canonical]
  exact ⟨_, ofScript_script canonical.lineFed type, rfl, rfl⟩

end Domain

end SchemaSync
