import Mathlib.Data.List.DropRight
import Mathlib.Tactic.IntervalCases
import Onebox.Python.Text

/-!
# Normalized text

Text that has been stripped or folded once, and what the same operations make of it again. Stripping
is done twice over, by Rust and by Python, which count different characters as space; Python counts
more, so its result is left alone by both.

Full case folding replaces a character by one or several others, so it may lengthen a text. It is
taken as a mapping of characters with the properties of the Unicode tables that matter here: what
has been folded stays as it is, and space, NUL and the marks of an address are neither made nor
lost.
-/

namespace Python

/-! ## Stripping -/

/-- The `White_Space` property, Rust's `char::is_whitespace`: `str.isspace` without the information
separators. -/
def isWhiteSpace (c : Char) : Bool := isSpace c && !(28 ≤ c.toNat && c.toNat ≤ 31)

/-- Rust's `str::trim`. -/
def trim (s : String) : String := String.ofList (stripChars isWhiteSpace s.toList)

section

variable {p q : Char → Bool} {cs : List Char} {c : Char}

theorem stripChars_eq_rdropWhile (p : Char → Bool) (cs : List Char) :
    stripChars p cs = (cs.dropWhile p).rdropWhile p := rfl

theorem stripChars_of_ends (hhead : ∀ c ∈ cs.head?, p c = false)
    (hlast : ∀ c ∈ cs.getLast?, p c = false) : stripChars p cs = cs := by
  have hfront : cs.dropWhile p = cs := by
    cases cs with
    | nil => rfl
    | cons c cs => exact List.dropWhile_cons_of_neg (by simpa using hhead c rfl)
  rw [stripChars_eq_rdropWhile, hfront, List.rdropWhile_eq_self_iff]
  intro hne
  simpa using hlast _ (List.getLast_mem_getLast? hne)

theorem head_stripChars (h : (stripChars p cs).head? = some c) : p c = false := by
  rw [stripChars_eq_rdropWhile] at h
  obtain ⟨rest, hrest⟩ := List.rdropWhile_prefix p (l := cs.dropWhile p)
  have hhead : (cs.dropWhile p).head? = some c := by
    rw [← hrest, List.head?_append, h]
    rfl
  have hnot := List.head?_dropWhile_not p cs
  rw [hhead] at hnot
  exact hnot

theorem getLast_stripChars (h : (stripChars p cs).getLast? = some c) : p c = false := by
  rw [stripChars_eq_rdropWhile] at h
  have hne : (cs.dropWhile p).rdropWhile p ≠ [] := by
    rintro hnil
    rw [hnil] at h
    cases h
  rw [List.getLast?_eq_some_getLast hne] at h
  obtain rfl := Option.some.inj h
  simpa using List.rdropWhile_last_not p _ hne

/-- What is stripped of more stays when less is stripped of it. -/
theorem stripChars_stripChars (hqp : ∀ c, q c = true → p c = true) :
    stripChars q (stripChars p cs) = stripChars p cs := by
  have hnot : ∀ c, p c = false → q c = false := by
    intro c hpc
    by_contra hqc
    rw [hqp c (by simpa using hqc)] at hpc
    cases hpc
  exact stripChars_of_ends (fun c hc ↦ hnot c (head_stripChars hc))
    fun c hc ↦ hnot c (getLast_stripChars hc)

theorem stripChars_of_forall (h : ∀ c ∈ cs, p c = false) : stripChars p cs = cs :=
  stripChars_of_ends (fun c hc ↦ h c (List.mem_of_mem_head? hc))
    fun c hc ↦ h c (List.mem_of_getLast? hc)

end

theorem length_stripChars_le (p : Char → Bool) (cs : List Char) :
    (stripChars p cs).length ≤ cs.length := by
  rw [stripChars_eq_rdropWhile]
  exact Nat.le_trans (List.rdropWhile_prefix p _).length_le (List.dropWhile_sublist p).length_le

theorem mem_of_mem_stripChars {p : Char → Bool} {cs : List Char} {c : Char}
    (h : c ∈ stripChars p cs) : c ∈ cs := by
  rw [stripChars_eq_rdropWhile] at h
  exact (List.dropWhile_sublist p).subset ((List.rdropWhile_prefix p _).subset h)

theorem isSpace_of_isWhiteSpace {c : Char} (h : isWhiteSpace c = true) : isSpace c = true :=
  (Bool.and_eq_true_iff.mp h).1

theorem strip_strip (s : String) : strip (strip s) = strip s := by
  rw [strip, strip, String.toList_ofList, stripChars_stripChars fun _ h ↦ h]

theorem length_strip_le (s : String) : (strip s).length ≤ s.length := by
  rw [strip, String.length_ofList, ← String.length_toList]
  exact length_stripChars_le _ _

theorem trim_strip (s : String) : trim (strip s) = strip s := by
  rw [trim, strip, String.toList_ofList, stripChars_stripChars fun _ ↦ isSpace_of_isWhiteSpace]

theorem strip_of_forall {s : String} (h : ∀ c ∈ s.toList, isSpace c = false) : strip s = s := by
  rw [strip, stripChars_of_forall h, String.ofList_toList]

theorem trim_of_forall {s : String} (h : ∀ c ∈ s.toList, isSpace c = false) : trim s = s := by
  rw [trim, stripChars_of_forall, String.ofList_toList]
  intro c hc
  rw [isWhiteSpace, h c hc]
  rfl

/-! ## Splitting -/

/-- `s.rsplit(c, 1)` of a text that contains `c`. -/
def rsplitOnce (c : Char) (cs : List Char) : List Char × List Char :=
  (((cs.reverse.dropWhile (· ≠ c)).drop 1).reverse, (cs.reverse.takeWhile (· ≠ c)).reverse)

theorem rsplitOnce_append {c : Char} {cs ds : List Char} (h : c ∉ ds) :
    rsplitOnce c (cs ++ c :: ds) = (cs, ds) := by
  have hne : ∀ d ∈ ds.reverse, decide (d ≠ c) = true := by
    intro d hd
    refine decide_eq_true fun heq ↦ h ?_
    rw [← heq]
    exact List.mem_reverse.mp hd
  have hreverse : (cs ++ c :: ds).reverse = ds.reverse ++ c :: cs.reverse := by simp
  rw [rsplitOnce, hreverse, List.dropWhile_append_of_pos hne, List.takeWhile_append_of_pos hne]
  simp

theorem exists_of_count_eq_one {c : Char} {cs : List Char} (h : cs.count c = 1) :
    ∃ as ds, cs = as ++ c :: ds ∧ c ∉ as ∧ c ∉ ds := by
  obtain ⟨as, ds, rfl⟩ := List.append_of_mem (List.count_pos_iff.mp (h ▸ Nat.one_pos))
  rw [List.count_append, List.count_cons_self] at h
  refine ⟨as, ds, rfl, ?_, ?_⟩
  · exact List.count_eq_zero.mp (by omega)
  · exact List.count_eq_zero.mp (by omega)

/-! ## Case folding -/

/-- The characters by which text and addresses are taken apart. -/
def isDelimiter (c : Char) : Bool := isSpace c || c.toNat == 0 || c == '@' || c == '.'

/-- `str.casefold`, character by character. -/
structure CaseFolding where
  fold : Char → List Char
  ne_nil : ∀ c, fold c ≠ []
  /-- Folded text is folded. -/
  fold_fold : ∀ c, (fold c).flatMap fold = fold c
  /-- Delimiters stand for themselves. -/
  fold_delimiter : ∀ c, isDelimiter c = true → fold c = [c]
  /-- Nothing else is folded to a delimiter. -/
  delimiter_of_mem : ∀ c d, d ∈ fold c → isDelimiter d = true → c = d

namespace CaseFolding

variable (folding : CaseFolding)

/-- `str.casefold`. -/
def casefold (s : String) : String := String.ofList (s.toList.flatMap folding.fold)

theorem toList_casefold (s : String) :
    (folding.casefold s).toList = s.toList.flatMap folding.fold := String.toList_ofList ..

theorem casefold_casefold (s : String) :
    folding.casefold (folding.casefold s) = folding.casefold s := by
  rw [casefold, toList_casefold, casefold, List.flatMap_assoc]
  exact congrArg String.ofList (List.flatMap_congr fun c _ ↦ folding.fold_fold c)

variable {folding} {cs : List Char} {d : Char}

/-- Folding keeps the delimiters of a text. -/
theorem mem_flatMap_iff (hd : isDelimiter d = true) : d ∈ cs.flatMap folding.fold ↔ d ∈ cs := by
  rw [List.mem_flatMap]
  constructor
  · rintro ⟨c, hc, hmem⟩
    rw [← folding.delimiter_of_mem c d hmem hd]
    exact hc
  · intro hmem
    refine ⟨d, hmem, ?_⟩
    rw [folding.fold_delimiter d hd]
    exact List.mem_singleton_self d

/-- Folding keeps how often a delimiter occurs. -/
theorem count_flatMap (hd : isDelimiter d = true) :
    (cs.flatMap folding.fold).count d = cs.count d := by
  induction cs with
  | nil => rfl
  | cons c cs ih =>
    rw [List.flatMap_cons, List.count_append, ih, List.count_cons, Nat.add_comm]
    by_cases hc : c = d
    · rw [hc, folding.fold_delimiter d hd, List.count_singleton_self, beq_self_eq_true, if_pos rfl]
    · have hnot : d ∉ folding.fold c := fun hmem ↦ hc (folding.delimiter_of_mem c d hmem hd)
      rw [List.count_eq_zero.mpr hnot, beq_false_of_ne hc, if_neg Bool.false_ne_true]

theorem head_flatMap (hd : isDelimiter d = true) (h : (cs.flatMap folding.fold).head? = some d) :
    cs.head? = some d := by
  cases cs with
  | nil => cases h
  | cons c cs =>
    obtain ⟨e, rest, hfold⟩ := List.exists_cons_of_ne_nil (folding.ne_nil c)
    rw [List.flatMap_cons, hfold] at h
    obtain rfl := Option.some.inj h
    rw [folding.delimiter_of_mem c e (hfold ▸ List.mem_cons_self) hd]
    rfl

theorem getLast_flatMap (hd : isDelimiter d = true)
    (h : (cs.flatMap folding.fold).getLast? = some d) : cs.getLast? = some d := by
  induction cs using List.reverseRecOn with
  | nil => cases h
  | append_singleton cs c =>
    rw [List.flatMap_append, List.flatMap_singleton, List.getLast?_append,
      List.getLast?_eq_some_getLast (folding.ne_nil c)] at h
    have hlast := Option.some.inj h
    have hmem : d ∈ folding.fold c := hlast ▸ List.getLast_mem (folding.ne_nil c)
    rw [folding.delimiter_of_mem c d hmem hd]
    exact List.getLast?_concat

/-- Capital letters are no delimiters and neither are small ones, which are no capital letters. -/
theorem ofNat_capital : ∀ n, 65 ≤ n → n ≤ 90 → isDelimiter (Char.ofNat n) = false ∧
    isDelimiter (Char.ofNat (n + 32)) = false ∧ (Char.ofNat (n + 32)).toNat = n + 32 := by
  intro n hlow hhigh
  interval_cases n <;> decide

/-- The folding of ASCII text. -/
def ascii : CaseFolding where
  fold c := if 65 ≤ c.toNat ∧ c.toNat ≤ 90 then [Char.ofNat (c.toNat + 32)] else [c]
  ne_nil c := by split <;> exact nofun
  fold_fold c := by
    split
    · rename_i hupper
      rw [List.flatMap_singleton, if_neg]
      rw [(ofNat_capital _ hupper.1 hupper.2).2.2]
      omega
    · rename_i hupper
      rw [List.flatMap_singleton, if_neg hupper]
  fold_delimiter c h := by
    refine if_neg fun hupper ↦ ?_
    have hnot := (ofNat_capital _ hupper.1 hupper.2).1
    rw [Char.ofNat_toNat, h] at hnot
    cases hnot
  delimiter_of_mem c d hmem h := by
    split at hmem
    · rename_i hupper
      rw [List.mem_singleton.mp hmem, (ofNat_capital _ hupper.1 hupper.2).2.1] at h
      cases h
    · exact (List.mem_singleton.mp hmem).symm

end CaseFolding

/-- Folding leaves stripped text stripped. -/
theorem strip_casefold_strip {folding : CaseFolding} (s : String) :
    strip (folding.casefold (strip s)) = folding.casefold (strip s) := by
  have hdelimiter : ∀ c, isSpace c = true → isDelimiter c = true := by
    intro c hspace
    rw [isDelimiter, hspace]
    rfl
  have hstrip : (strip s).toList = stripChars isSpace s.toList := String.toList_ofList
  rw [strip, CaseFolding.toList_casefold, hstrip]
  conv_rhs => rw [CaseFolding.casefold, hstrip]
  rw [stripChars_of_ends]
  · intro c hhead
    by_contra hspace
    rw [Bool.not_eq_false] at hspace
    have hhead' := CaseFolding.head_flatMap (hdelimiter c hspace) hhead
    exact absurd hspace (by rw [head_stripChars hhead']; exact Bool.false_ne_true)
  · intro c hlast
    by_contra hspace
    rw [Bool.not_eq_false] at hspace
    have hlast' := CaseFolding.getLast_flatMap (hdelimiter c hspace) hlast
    exact absurd hspace (by rw [getLast_stripChars hlast']; exact Bool.false_ne_true)

end Python
