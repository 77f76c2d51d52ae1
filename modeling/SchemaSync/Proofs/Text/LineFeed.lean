import Mathlib.Data.List.Basic
import SchemaSync.Proofs.Text.Trim

/-! What writing every line end as a line feed does to a text. Only white space changes. -/

namespace SchemaSync.Text

def lineFed (s : String) : String :=
  String.ofList (withLineFeeds s.toList)

theorem withLineFeeds_cons {c : Char} (other : c ≠ '\r') (rest : List Char) :
    withLineFeeds (c :: rest) = c :: withLineFeeds rest := by
  rw [withLineFeeds]
  · rw [if_neg (by simpa using other)]
  · exact fun _ same => absurd same other

theorem withLineFeeds_single {rest : List Char} (alone : rest.head? ≠ some '\n') :
    withLineFeeds ('\r' :: rest) = '\n' :: withLineFeeds rest := by
  rw [withLineFeeds]
  · rfl
  · rintro after - rfl
    exact alone rfl

/-- Induction along a text and the same text with line feeds. -/
theorem lineFeeds_induct {motive : List Char → List Char → Prop} (nil : motive [] [])
    (plain : ∀ c rest, c ≠ '\r' → motive rest (withLineFeeds rest) →
      motive (c :: rest) (c :: withLineFeeds rest))
    (single : ∀ rest, rest.head? ≠ some '\n' → motive rest (withLineFeeds rest) →
      motive ('\r' :: rest) ('\n' :: withLineFeeds rest))
    (pair : ∀ rest, motive rest (withLineFeeds rest) →
      motive ('\r' :: '\n' :: rest) ('\n' :: withLineFeeds rest))
    (cs : List Char) : motive cs (withLineFeeds cs) := by
  induction short : cs.length using Nat.strongRecOn generalizing cs with
  | _ n ih =>
    subst short
    cases cs with
    | nil => exact nil
    | cons c rest =>
      by_cases same : c = '\r'
      · subst same
        by_cases next : rest.head? = some '\n'
        · cases rest with
          | nil => cases next
          | cons d rest =>
            cases next
            exact pair rest (ih _ (by simp only [List.length_cons]; omega) rest rfl)
        · rw [withLineFeeds_single next]
          exact single rest next (ih _ (by simp) rest rfl)
      · rw [withLineFeeds_cons same]
        exact plain c rest same (ih _ (by simp) rest rfl)

theorem withLineFeeds_eq_self {cs : List Char} (none : '\r' ∉ cs) : withLineFeeds cs = cs := by
  induction cs with
  | nil => rfl
  | cons c rest ih =>
    rw [List.mem_cons, not_or] at none
    rw [withLineFeeds_cons (Ne.symm none.1), ih none.2]

theorem return_not_mem (cs : List Char) : '\r' ∉ withLineFeeds cs := by
  refine lineFeeds_induct (motive := fun _ written => '\r' ∉ written) (by simp) ?_ ?_ ?_ cs
  · intro c rest other ih
    simp [ih, other.symm]
  · intro rest _ ih
    simp [ih]
  · intro rest ih
    simp [ih]

theorem withLineFeeds_append {front : List Char} (stop : '\r' ∉ front.getLast?) (rest : List Char) :
    withLineFeeds (front ++ rest) = withLineFeeds front ++ withLineFeeds rest := by
  refine lineFeeds_induct (motive := fun front written => '\r' ∉ front.getLast? →
    withLineFeeds (front ++ rest) = written ++ withLineFeeds rest) (fun _ => rfl) ?_ ?_ ?_ front stop
  · intro c more other ih stop
    rw [List.cons_append, withLineFeeds_cons other, List.cons_append,
      ih fun last => stop (List.mem_getLast?_cons last)]
  · intro more alone ih stop
    have following := ih fun last => stop (List.mem_getLast?_cons last)
    cases more with
    | nil => exact absurd rfl stop
    | cons d more =>
      have split : withLineFeeds ('\r' :: (d :: more ++ rest)) = '\n' :: withLineFeeds (d :: more ++ rest) :=
        withLineFeeds_single alone
      rw [List.cons_append, split, following, List.cons_append]
  · intro more ih stop
    have following := ih fun last => stop (List.mem_getLast?_cons (List.mem_getLast?_cons last))
    exact congrArg ('\n' :: ·) following

theorem withLineFeeds_prepend {front : List Char} (none : '\r' ∉ front) (rest : List Char) :
    withLineFeeds (front ++ rest) = front ++ withLineFeeds rest := by
  rw [withLineFeeds_append (fun last => none (List.mem_of_getLast? last)), withLineFeeds_eq_self none]

theorem head?_withLineFeeds {cs : List Char} {c : Char} (head : c ∈ (withLineFeeds cs).head?) :
    c ∈ cs.head? ∨ (c = '\n' ∧ '\r' ∈ cs.head?) := by
  refine lineFeeds_induct (motive := fun cs written => c ∈ written.head? →
    c ∈ cs.head? ∨ (c = '\n' ∧ '\r' ∈ cs.head?)) (fun head => .inl head) ?_ ?_ ?_ cs head
  · exact fun _ _ _ _ head => .inl head
  · exact fun _ _ _ head => .inr ⟨(Option.some.inj head).symm, rfl⟩
  · exact fun _ _ head => .inr ⟨(Option.some.inj head).symm, rfl⟩

theorem trimStart_withLineFeeds (cs : List Char) :
    trimStart (withLineFeeds cs) = withLineFeeds (trimStart cs) := by
  refine lineFeeds_induct (motive := fun cs written => trimStart written = withLineFeeds (trimStart cs))
    rfl ?_ ?_ ?_ cs
  · intro c rest other ih
    cases blank : isBlank c with
    | true => simpa [trimStart, blank] using ih
    | false => simp [trimStart, blank, withLineFeeds_cons other]
  · exact fun rest _ ih => ih
  · exact fun rest ih => ih

/-- A text that ends with something other than white space still ends with it. -/
theorem withLineFeeds_concat {d : Char} (solid : isBlank d = false) (front : List Char) :
    ∃ body, withLineFeeds (front ++ [d]) = body ++ [d] := by
  have other : d ≠ '\r' ∧ d ≠ '\n' := by
    constructor <;> (rintro rfl; cases solid)
  refine lineFeeds_induct (motive := fun front _ => ∃ body, withLineFeeds (front ++ [d]) = body ++ [d])
    ⟨[], withLineFeeds_cons other.1 []⟩ ?_ ?_ ?_ front
  · rintro c rest plain ⟨body, written⟩
    exact ⟨c :: body, by rw [List.cons_append, withLineFeeds_cons plain, written, List.cons_append]⟩
  · rintro rest alone ⟨body, written⟩
    have alone : (rest ++ [d]).head? ≠ some '\n' := by
      cases rest with
      | nil => exact fun same => other.2 (Option.some.inj same)
      | cons => exact alone
    exact ⟨'\n' :: body, by rw [List.cons_append, withLineFeeds_single alone, written, List.cons_append]⟩
  · rintro rest ⟨body, written⟩
    exact ⟨'\n' :: body, congrArg ('\n' :: ·) written⟩

theorem Trimmed.withLineFeeds {cs : List Char} (trimmed : Trimmed cs) : Trimmed (withLineFeeds cs) := by
  constructor
  · intro c head
    rcases head?_withLineFeeds head with head | ⟨_, head⟩
    · exact trimmed.head c head
    · cases trimmed.head _ head
  · intro c last
    cases found : cs.getLast? with
    | none =>
      rw [List.getLast?_eq_none_iff.mp found] at last
      cases last
    | some d =>
      obtain ⟨front, rfl⟩ := List.getLast?_eq_some_iff.mp found
      have solid := trimmed.last d found
      obtain ⟨body, written⟩ := withLineFeeds_concat solid front
      rw [written, List.getLast?_concat] at last
      exact Option.some.inj last ▸ solid

theorem trimChars_withLineFeeds (cs : List Char) :
    trimChars (withLineFeeds cs) = withLineFeeds (trimChars cs) := by
  obtain ⟨blanks, blank, split⟩ := trimEnd_split (trimStart cs)
  have trimmed : Trimmed (trimChars cs) := trimmed_trimChars cs
  have stop : '\r' ∉ (trimChars cs).getLast? := fun last => by cases trimmed.last _ last
  have blankFed : ∀ c ∈ withLineFeeds blanks, isBlank c = true := by
    refine lineFeeds_induct (motive := fun blanks written => (∀ c ∈ blanks, isBlank c = true) →
      ∀ c ∈ written, isBlank c = true) id ?_ ?_ ?_ blanks blank
    · intro c rest _ ih blank
      exact List.forall_mem_cons.mpr ⟨blank c (by simp), ih fun d member => blank d (by simp [member])⟩
    · intro rest _ ih blank
      exact List.forall_mem_cons.mpr ⟨rfl, ih fun d member => blank d (by simp [member])⟩
    · intro rest ih blank
      exact List.forall_mem_cons.mpr ⟨rfl, ih fun d member => blank d (by simp [member])⟩
  have start : trimEnd (withLineFeeds (trimStart cs)) = trimEnd (withLineFeeds (trimChars cs)) := by
    conv => lhs; rw [split, ← trimChars, withLineFeeds_append stop, trimEnd_blanks blankFed]
  rw [trimChars, trimStart_withLineFeeds, start, trimEnd_last trimmed.withLineFeeds.last]

theorem all_isBlank_withLineFeeds (cs : List Char) : (withLineFeeds cs).all isBlank = cs.all isBlank := by
  refine lineFeeds_induct (motive := fun cs written => written.all isBlank = cs.all isBlank) rfl ?_ ?_ ?_ cs
  · intro c rest _ ih
    rw [List.all_cons, ih, List.all_cons]
  · intro rest _ ih
    rw [List.all_cons, ih, List.all_cons]
    rfl
  · intro rest ih
    rw [List.all_cons, ih, List.all_cons, List.all_cons]
    rfl

theorem lineFed_eq_self {s : String} (none : '\r' ∉ s.toList) : lineFed s = s := by
  rw [lineFed, withLineFeeds_eq_self none, String.ofList_toList]

end SchemaSync.Text
