import Onebox.Python.Digits

/-!
# UUIDs

`str(uuid)` and `UUID(text)`. A `UUID` is its number, by which the database orders it.
-/

namespace Python

/-- A `uuid.UUID`. -/
abbrev Uuid := Fin (2 ^ 128)

instance neZero_uuid : NeZero (2 ^ 128) := ⟨by decide⟩

/-- `text.replace(pattern, "")`, while `skip` characters of an occurrence are left. -/
def deleteAllFrom (pattern : List Char) : ℕ → List Char → List Char
  | _, [] => []
  | skip + 1, _ :: rest => deleteAllFrom pattern skip rest
  | 0, c :: rest =>
    if pattern.isPrefixOf (c :: rest) then deleteAllFrom pattern (pattern.length - 1) rest
    else c :: deleteAllFrom pattern 0 rest

/-- `text.replace(pattern, "")`. -/
def deleteAll (pattern cs : List Char) : List Char := deleteAllFrom pattern 0 cs

namespace Uuid

/-- `"%032x" % uuid.int`. -/
def hex (id : Uuid) : List Char := padDigits 16 32 id

/-- `str(uuid)`. -/
def text (id : Uuid) : List Char :=
  id.hex.take 8 ++ '-' :: ((id.hex.drop 8).take 4 ++ '-' :: ((id.hex.drop 12).take 4 ++
    '-' :: ((id.hex.drop 16).take 4 ++ '-' :: id.hex.drop 20)))

/-- `str(uuid)`, as a string. -/
def toText (id : Uuid) : String := String.ofList id.text

/-- `UUID(text)`; `none` is the `ValueError`. -/
def ofText (cs : List Char) : Option Uuid :=
  let hex := (stripChars (fun c ↦ c = '{' || c = '}')
    (deleteAll "uuid:".toList (deleteAll "urn:".toList cs))).filter (· ≠ '-')
  if hex.length ≠ 32 then none
  else
    match parseInt 16 hex with
    | none => none
    | some n => if h : 0 ≤ n ∧ n.toNat < 2 ^ 128 then some ⟨n.toNat, h.2⟩ else none

end Uuid

/-! ## Reading what was written -/

/-- A text that has no character that an occurrence begins with. -/
theorem deleteAll_of_not_mem {p : Char} {pattern cs : List Char} (h : p ∉ cs) :
    deleteAll (p :: pattern) cs = cs := by
  rw [deleteAll]
  induction cs with
  | nil => rfl
  | cons c cs ih =>
    obtain ⟨hc, hcs⟩ := not_or.mp fun hmem ↦ h (List.mem_cons.mpr hmem)
    have hprefix : (p :: pattern).isPrefixOf (c :: cs) = false := by
      rw [List.isPrefixOf_cons_cons, beq_false_of_ne hc, Bool.false_and]
    rw [deleteAllFrom, hprefix, ih hcs]
    rfl

namespace Uuid

variable (id : Uuid)

/-- The characters of a UUID's number. -/
theorem hex_chars : ∀ c ∈ id.hex, c ≠ 'u' ∧ c ≠ '{' ∧ c ≠ '}' ∧ c ≠ '-' := by
  have hall : ∀ d < 16, Nat.digitChar d ≠ 'u' ∧ Nat.digitChar d ≠ '{' ∧ Nat.digitChar d ≠ '}' ∧
      Nat.digitChar d ≠ '-' := by decide
  intro c hc
  obtain ⟨d, hd, rfl⟩ := exists_of_mem_padDigits (by decide) hc
  exact hall d hd

theorem mem_text {c : Char} (h : c ∈ id.text) : c = '-' ∨ c ∈ id.hex := by
  simp only [text, List.mem_append, List.mem_cons] at h
  rcases h with h | h | h | h | h | h | h | h | h
  · exact Or.inr (List.mem_of_mem_take h)
  · exact Or.inl h
  · exact Or.inr (List.mem_of_mem_drop (List.mem_of_mem_take h))
  · exact Or.inl h
  · exact Or.inr (List.mem_of_mem_drop (List.mem_of_mem_take h))
  · exact Or.inl h
  · exact Or.inr (List.mem_of_mem_drop (List.mem_of_mem_take h))
  · exact Or.inl h
  · exact Or.inr (List.mem_of_mem_drop h)

/-- Without its dashes the text is the number. -/
theorem filter_text : id.text.filter (· ≠ '-') = id.hex := by
  have hself : ∀ cs : List Char, cs ⊆ id.hex → cs.filter (· ≠ '-') = cs := by
    intro cs hsub
    refine List.filter_eq_self.mpr fun c hc ↦ decide_eq_true ?_
    exact (id.hex_chars c (hsub hc)).2.2.2
  have htake : ∀ n, ((id.hex.drop n).take 4).filter (· ≠ '-') = (id.hex.drop n).take 4 := fun n ↦
    hself _ fun c hc ↦ List.mem_of_mem_drop (List.mem_of_mem_take hc)
  have hjoin : ∀ n, (id.hex.drop n).take 4 ++ id.hex.drop (n + 4) = id.hex.drop n := by
    intro n
    rw [← List.drop_drop]
    exact List.take_append_drop 4 _
  have hdash : ∀ cs : List Char, ('-' :: cs).filter (· ≠ '-') = cs.filter (· ≠ '-') := fun cs ↦
    List.filter_cons_of_neg (by simp)
  rw [text, List.filter_append, hself _ fun c hc ↦ List.mem_of_mem_take hc, hdash,
    List.filter_append, htake, hdash, List.filter_append, htake, hdash, List.filter_append, htake,
    hdash, hself _ fun c hc ↦ List.mem_of_mem_drop hc, hjoin 16, hjoin 12, hjoin 8]
  exact List.take_append_drop 8 _

/-- **The text of a UUID is read back.** -/
theorem ofText_text : ofText id.text = some id := by
  have hplain : ∀ c ∈ id.text, c ≠ 'u' ∧ c ≠ '{' ∧ c ≠ '}' := by
    intro c hc
    rcases id.mem_text hc with rfl | hhex
    · decide
    · obtain ⟨hu, hopen, hclose, -⟩ := id.hex_chars c hhex
      exact ⟨hu, hopen, hclose⟩
  have hu : 'u' ∉ id.text := fun hmem ↦ (hplain _ hmem).1 rfl
  have hstrip : stripChars (fun c ↦ c = '{' || c = '}') id.text = id.text := by
    refine stripChars_of_forall fun c hc ↦ ?_
    simp [(hplain c hc).2.1, (hplain c hc).2.2]
  have hread : parseInt 16 id.hex = some (id.val : ℤ) :=
    parseInt_padDigits (by decide) (by decide) (Nat.lt_of_lt_of_eq id.isLt (by decide))
  have hlength : id.hex.length = 32 := length_padDigits
  rw [ofText]
  have hhex : (stripChars (fun c ↦ c = '{' || c = '}')
      (deleteAll "uuid:".toList (deleteAll "urn:".toList id.text))).filter (· ≠ '-') =
        id.hex := by
    rw [show "urn:".toList = 'u' :: "rn:".toList from rfl,
      show "uuid:".toList = 'u' :: "uid:".toList from rfl, deleteAll_of_not_mem hu,
      deleteAll_of_not_mem hu, hstrip, filter_text]
  rw [hhex, if_neg (not_not.mpr hlength), hread]
  change (if h : 0 ≤ (id.val : ℤ) ∧ (id.val : ℤ).toNat < 2 ^ 128 then some _ else none) = some id
  rw [dif_pos ⟨Int.natCast_nonneg _, id.isLt⟩]
  rfl

end Uuid

end Python
