import TaskDecoration.Text.Blank

/-!
# Taking texts apart

What trimming and cutting a text do where it is known what the text is put together from. A text
that begins and ends with characters that are not blank is trimmed already (`trim_of_ends`), and
cutting in two at a character that was put between two texts gives back both of them
(`splitFirst?_append`, `splitLast?_append`).
-/

set_option autoImplicit false

namespace TaskDecoration.Text

section Trimming

variable {c d : Char} {cs : List Char}

/-- Nothing goes where both ends are printed. -/
theorem trim_of_ends {xs ds : List Char} (front : xs = c :: cs) (back : xs = ds ++ [d])
    (first : isBlank c = false) (last : isBlank d = false) : trim xs = xs := by
  have kept : xs.dropWhile isBlank = xs := by simp [front, first]
  unfold trim
  rw [kept, back]
  simp [last]

/-- Blanks in front make no difference. -/
theorem trim_blank (blank : isBlank c = true) (cs : List Char) : trim (c :: cs) = trim cs := by
  simp [trim, blank]

/-- A character that is not blank survives. -/
theorem mem_trim (member : c ∈ cs) (printed : isBlank c = false) : c ∈ trim cs := by
  have survives (xs : List Char) (hc : c ∈ xs) : c ∈ xs.dropWhile isBlank := by
    rw [← List.takeWhile_append_dropWhile (p := isBlank) (l := xs)] at hc
    rcases List.mem_append.mp hc with dropped | kept
    · have blank := List.all_eq_true.mp (List.all_takeWhile (p := isBlank) (l := xs)) c dropped
      rw [printed] at blank
      cases blank
    · exact kept
  unfold trim
  rw [List.mem_reverse]
  exact survives _ (List.mem_reverse.mpr (survives cs member))

theorem length_trim_le (cs : List Char) : (trim cs).length ≤ cs.length := by
  have shorter (xs : List Char) : (xs.dropWhile isBlank).length ≤ xs.length :=
    (List.dropWhile_sublist isBlank).length_le
  unfold trim
  rw [List.length_reverse]
  refine Nat.le_trans (shorter _) ?_
  rw [List.length_reverse]
  exact shorter cs

/-- What has been trimmed begins with a character that is not blank. -/
theorem first_of_trimmed (trimmed : trim (c :: cs) = c :: cs) : isBlank c = false := by
  apply Bool.eq_false_iff.mpr
  intro blank
  have short := length_trim_le cs
  rw [trim_blank blank] at trimmed
  rw [trimmed, List.length_cons] at short
  omega

end Trimming

section Cutting

variable {p : Char → Bool} {c : Char} {cs ds : List Char}

/-- A character that is not cut at is in one of the parts. -/
theorem mem_splitOnP (member : c ∈ cs) (uncut : p c = false) :
    ∃ part ∈ cs.splitOnP p, c ∈ part := by
  induction cs with
  | nil => cases member
  | cons x cs ih =>
    obtain ⟨first, rest, parts⟩ := List.exists_cons_of_ne_nil (List.splitOnP_ne_nil p cs)
    rw [List.splitOnP_cons_eq_if_modifyHead]
    rcases List.mem_cons.mp member with rfl | inner
    · rw [uncut, parts]
      exact ⟨c :: first, by simp, by simp⟩
    · obtain ⟨part, hpart, hc⟩ := ih inner
      split
      · exact ⟨part, List.mem_cons_of_mem _ hpart, hc⟩
      · rw [parts] at hpart ⊢
        rcases List.mem_cons.mp hpart with rfl | later
        · exact ⟨x :: part, by simp, List.mem_cons_of_mem x hc⟩
        · exact ⟨part, List.mem_cons_of_mem _ later, hc⟩

theorem splitFirst?_append (uncut : ∀ c ∈ cs, p c = false) (cut : p c = true) (ds : List Char) :
    splitFirst? p (cs ++ c :: ds) = some (cs, ds) := by
  induction cs with
  | nil => simp [splitFirst?, cut]
  | cons x cs ih =>
    rw [List.cons_append, splitFirst?, uncut x List.mem_cons_self,
      ih fun d hd => uncut d (List.mem_cons_of_mem x hd)]
    rfl

theorem splitFirst?_uncut (uncut : ∀ c ∈ cs, p c = false) : splitFirst? p cs = none := by
  induction cs with
  | nil => rfl
  | cons x cs ih =>
    rw [splitFirst?, uncut x List.mem_cons_self, ih fun d hd => uncut d (List.mem_cons_of_mem x hd)]
    rfl

theorem splitLast?_append (uncut : ∀ c ∈ ds, p c = false) (cut : p c = true) (cs : List Char) :
    splitLast? p (cs ++ c :: ds) = some (cs, ds) := by
  have front : splitFirst? p (ds.reverse ++ c :: cs.reverse) = some (ds.reverse, cs.reverse) :=
    splitFirst?_append (fun d hd => uncut d (List.mem_reverse.mp hd)) cut _
  simp [splitLast?, front]

end Cutting

end TaskDecoration.Text
