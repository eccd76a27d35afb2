import Mathlib

/-! String cutting as Rust's `str` does it, stated on the characters.

A path of separator-free segments is recovered from its rendering, so two
rendered paths are equal only when the paths are.
-/

set_option autoImplicit false

namespace Library.Text

def stripPrefix (text lead : String) : Option String :=
  (text.toList.dropPrefix? lead.toList).map String.ofList

theorem stripPrefix_eq_some_iff {text lead rest : String} :
    stripPrefix text lead = some rest ↔ text = lead ++ rest := by
  simp only [stripPrefix, Option.map_eq_some_iff, List.dropPrefix?_eq_some_iff, beq_iff_eq]
  constructor
  · rintro ⟨tail, ⟨head, split, rfl⟩, rfl⟩
    rw [← String.toList_inj, String.toList_append, String.toList_ofList, split]
  · rintro rfl
    exact ⟨rest.toList, ⟨lead.toList, String.toList_append, rfl⟩, String.ofList_toList⟩

@[simp] theorem stripPrefix_append (lead rest : String) :
    stripPrefix (lead ++ rest) lead = some rest :=
  stripPrefix_eq_some_iff.mpr rfl

theorem stripPrefix_eq_none_iff {text lead : String} :
    stripPrefix text lead = none ↔ ∀ rest, text ≠ lead ++ rest := by
  constructor
  · rintro absent rest rfl
    simp at absent
  · intro differs
    cases found : stripPrefix text lead with
    | none => rfl
    | some rest => exact absurd (stripPrefix_eq_some_iff.mp found) (differs rest)

theorem stripPrefix_eq_none_of_not_mem {text lead : String} (char : Char) (needed : char ∈ lead.toList)
    (absent : char ∉ text.toList) : stripPrefix text lead = none := by
  rw [stripPrefix_eq_none_iff]
  rintro rest rfl
  exact absent (by simp [String.toList_append, needed])

/-- Split a list at its first separator, which belongs to neither part. -/
def splitAtFirst {α : Type} [DecidableEq α] (separator : α) : List α → Option (List α × List α)
  | [] => none
  | item :: rest =>
    if item = separator then some ([], rest)
    else (splitAtFirst separator rest).map fun parts => (item :: parts.1, parts.2)

theorem splitAtFirst_append {α : Type} [DecidableEq α] {separator : α} (head tail : List α)
    (free : separator ∉ head) : splitAtFirst separator (head ++ separator :: tail) = some (head, tail) := by
  induction head with
  | nil => simp [splitAtFirst]
  | cons item head ih =>
    have differs : item ≠ separator := fun same => free (by simp [same])
    have rest : separator ∉ head := fun member => free (by simp [member])
    simp [splitAtFirst, differs, ih rest]

theorem splitAtFirst_eq_none {α : Type} [DecidableEq α] {separator : α} {items : List α}
    (free : separator ∉ items) : splitAtFirst separator items = none := by
  induction items with
  | nil => rfl
  | cons item items ih =>
    have differs : item ≠ separator := fun same => free (by simp [same])
    have rest : separator ∉ items := fun member => free (by simp [member])
    simp [splitAtFirst, differs, ih rest]

theorem splitAtFirst_eq_some {α : Type} [DecidableEq α] {separator : α} {items head tail : List α}
    (found : splitAtFirst separator items = some (head, tail)) :
    items = head ++ separator :: tail ∧ separator ∉ head := by
  induction items generalizing head with
  | nil => simp [splitAtFirst] at found
  | cons item items ih =>
    by_cases same : item = separator
    · simp only [splitAtFirst, same, ↓reduceIte, Option.some.injEq, Prod.mk.injEq] at found
      obtain ⟨rfl, rfl⟩ := found
      simp [same]
    · simp only [splitAtFirst, same, ↓reduceIte, Option.map_eq_some_iff, Prod.mk.injEq,
        Prod.exists] at found
      obtain ⟨inner, rest, below, rfl, rfl⟩ := found
      obtain ⟨split, free⟩ := ih below
      exact ⟨by simp [split], by simp [free, Ne.symm same]⟩

def splitOnce (text : String) (separator : Char) : Option (String × String) :=
  (splitAtFirst separator text.toList).map fun parts => (String.ofList parts.1, String.ofList parts.2)

def split (text : String) (separator : Char) : List String :=
  (text.toList.splitOn separator).map String.ofList

theorem split_append {head : String} {separator : Char} (free : separator ∉ head.toList) (tail : String) :
    split (head ++ String.singleton separator ++ tail) separator = head :: split tail separator := by
  simp only [split, String.toList_append, String.toList_singleton, List.append_assoc, List.singleton_append]
  rw [List.splitOn_append_cons_self_of_not_mem free]
  simp

theorem split_of_not_mem {text : String} {separator : Char} (free : separator ∉ text.toList) :
    split text separator = [text] := by
  rw [split, List.splitOn_eq_singleton free]
  simp

/-- Everything before the first separator: the first item of `str::split`. -/
def beforeFirst (text : String) (separator : Char) : String :=
  String.ofList (text.toList.takeWhile (· ≠ separator))

/-- The characters that fit whole in the first `bytes` bytes. -/
def takeBytes (bytes : Nat) : List Char → List Char
  | [] => []
  | c :: rest => if c.utf8Size ≤ bytes then c :: takeBytes (bytes - c.utf8Size) rest else []

/-- The slice `&text[..bytes]`, for an end on a character boundary of the text. -/
def sliceTo (text : String) (bytes : Nat) : String := String.ofList (takeBytes bytes text.toList)

theorem utf8ByteSize_ofList_cons (c : Char) (rest : List Char) :
    (String.ofList (c :: rest)).utf8ByteSize = c.utf8Size + (String.ofList rest).utf8ByteSize := by
  have split : String.ofList (c :: rest) = String.singleton c ++ String.ofList rest := by
    rw [← String.toList_inj]
    simp
  rw [split, String.utf8ByteSize_append, String.utf8ByteSize_singleton]

theorem takeBytes_append (head tail : List Char) :
    takeBytes (String.ofList head).utf8ByteSize (head ++ tail) = head := by
  induction head with
  | nil =>
    cases tail with
    | nil => rfl
    | cons c tail =>
      have positive := c.utf8Size_pos
      have empty : (String.ofList []).utf8ByteSize = 0 := by simp
      rw [List.nil_append, takeBytes, if_neg (by omega)]
  | cons c head ih =>
    rw [utf8ByteSize_ofList_cons, List.cons_append, takeBytes, if_pos (Nat.le_add_right _ _),
      Nat.add_sub_cancel_left, ih]

theorem sliceTo_append (lead rest : String) : sliceTo (lead ++ rest) lead.utf8ByteSize = lead := by
  have cut := takeBytes_append lead.toList rest.toList
  rw [String.ofList_toList] at cut
  rw [sliceTo, String.toList_append, cut, String.ofList_toList]

theorem splitOnce_append {head : String} {separator : Char} (free : separator ∉ head.toList) (tail : String) :
    splitOnce (head ++ String.singleton separator ++ tail) separator = some (head, tail) := by
  have split := splitAtFirst_append head.toList tail.toList free
  simp only [splitOnce, String.toList_append, String.toList_singleton, List.append_assoc,
    List.singleton_append, split, Option.map_some, String.ofList_toList]

theorem splitOnce_eq_some {text head tail : String} {separator : Char}
    (found : splitOnce text separator = some (head, tail)) :
    text = head ++ String.singleton separator ++ tail ∧ separator ∉ head.toList := by
  simp only [splitOnce, Option.map_eq_some_iff, Prod.mk.injEq, Prod.exists] at found
  obtain ⟨before, after, split, rfl, rfl⟩ := found
  obtain ⟨whole, free⟩ := splitAtFirst_eq_some split
  refine ⟨?_, by simpa using free⟩
  rw [← String.toList_inj, whole]
  simp

theorem splitOnce_eq_none {text : String} {separator : Char} (free : separator ∉ text.toList) :
    splitOnce text separator = none := by
  rw [splitOnce, splitAtFirst_eq_none free]
  rfl

theorem not_mem_of_splitOnce_eq_none {text : String} {separator : Char} (found : splitOnce text separator = none) :
    separator ∉ text.toList := by
  intro member
  obtain ⟨before, after, whole, free⟩ := List.eq_append_cons_of_mem member
  rw [splitOnce, whole, splitAtFirst_append before after free] at found
  cases found

def isWhiteSpace (char : Char) : Bool :=
  let code := char.toNat
  (9 ≤ code && code ≤ 13) || code = 32 || code = 133 || code = 160 || code = 5760 ||
    (8192 ≤ code && code ≤ 8202) || code = 8232 || code = 8233 || code = 8239 || code = 8287 || code = 12288

def trim (chars : List Char) : List Char :=
  ((chars.dropWhile isWhiteSpace).reverse.dropWhile isWhiteSpace).reverse

def trimmed (text : String) : String := String.ofList (trim text.toList)

/-- `str::parse::<usize>`: an optional plus sign and at least one decimal digit. Overflow is
left out: a position in an in-memory vector always fits. -/
def parseUsize (text : String) : Except String Nat :=
  let digits := (text.toList.dropPrefix? ['+']).getD text.toList
  if text = "" then .error "cannot parse integer from empty string"
  else if digits ≠ [] ∧ digits.all Char.isDigit then .ok (Nat.ofDigitChars 10 digits 0)
  else .error "invalid digit found in string"

theorem isDigit_of_mem_repr {n : Nat} {c : Char} (member : c ∈ (toString n).toList) : c.isDigit = true := by
  rw [Nat.toString_eq_repr, Nat.toList_repr] at member
  exact Nat.isDigit_of_mem_toDigits (by decide) (by decide) member

theorem not_mem_repr {n : Nat} {c : Char} (other : c.isDigit = false) : c ∉ (toString n).toList := by
  intro member
  rw [isDigit_of_mem_repr member] at other
  cases other

@[simp] theorem parseUsize_toString (n : Nat) : parseUsize (toString n) = .ok n := by
  have digits : (toString n).toList = Nat.toDigits 10 n := by rw [Nat.toString_eq_repr, Nat.toList_repr]
  have nonempty : toString n ≠ "" := by rw [Nat.toString_eq_repr]; exact Nat.repr_ne_empty
  have unsigned : (toString n).toList.dropPrefix? ['+'] = none := by
    cases found : (toString n).toList.dropPrefix? ['+'] with
    | none => rfl
    | some rest =>
      obtain ⟨sign, split, same⟩ := List.dropPrefix?_eq_some_iff.mp found
      have plus : '+' ∈ (toString n).toList := by rw [split, eq_of_beq same]; simp
      exact absurd plus (not_mem_repr (by decide))
  have allDigits : (toString n).toList.all Char.isDigit = true :=
    List.all_eq_true.mpr fun _ member => isDigit_of_mem_repr member
  simp only [parseUsize, unsigned, Option.getD_none, allDigits, and_true, if_neg nonempty]
  rw [digits, if_pos Nat.toDigits_ne_nil, Nat.ofDigitChars_toDigits (by decide) (by decide)]

theorem beforeFirst_append {head tail : String} {separator : Char} (free : separator ∉ head.toList)
    (starts : tail.toList.head?.all (· = separator)) : beforeFirst (head ++ tail) separator = head := by
  have stops : tail.toList.takeWhile (· ≠ separator) = [] := by
    cases rest : tail.toList with
    | nil => rfl
    | cons c rest =>
      rw [rest] at starts
      simpa using starts
  have kept : ∀ c ∈ head.toList, decide (c ≠ separator) = true := by
    intro c member
    simpa using fun same : c = separator => free (same ▸ member)
  rw [beforeFirst, String.toList_append, List.takeWhile_append_of_pos kept, stops, List.append_nil,
    String.ofList_toList]

theorem beforeFirst_of_not_mem {text : String} {separator : Char} (free : separator ∉ text.toList) :
    beforeFirst text separator = text := by
  have alone : beforeFirst (text ++ "") separator = text := beforeFirst_append free rfl
  rwa [String.append_empty] at alone

theorem beforeFirst_append_rest (text : String) (separator : Char) :
    ∃ rest, text = beforeFirst text separator ++ rest := by
  refine ⟨String.ofList (text.toList.dropWhile (· ≠ separator)), ?_⟩
  rw [beforeFirst, ← String.ofList_append, List.takeWhile_append_dropWhile, String.ofList_toList]

end Library.Text

namespace Library.Segments

variable {α : Type} {separator : α}

def render (separator : α) (segments : List (List α)) : List α :=
  segments.flatMap (separator :: ·)

@[simp] theorem render_nil : render separator [] = [] := rfl

@[simp] theorem render_cons (segment : List α) (segments : List (List α)) :
    render separator (segment :: segments) = separator :: (segment ++ render separator segments) := by
  simp [render]

@[simp] theorem render_append (left right : List (List α)) :
    render separator (left ++ right) = render separator left ++ render separator right := by
  simp [render]

theorem head_unique {first second : List α} {left right : List (List α)}
    (firstFree : separator ∉ first) (secondFree : separator ∉ second)
    (same : first ++ render separator left = second ++ render separator right) :
    first = second ∧ render separator left = render separator right := by
  induction first generalizing second with
  -- the separator begins what follows, and no segment holds it
  | nil =>
    cases second with
    | nil => exact ⟨rfl, same⟩
    | cons item second =>
      cases left with
      | nil => simp at same
      | cons segment left =>
        simp only [List.nil_append, render_cons, List.cons_append, List.cons.injEq] at same
        exact absurd (by simp [same.1]) secondFree
  | cons item first ih =>
    cases second with
    | nil =>
      cases right with
      | nil => simp at same
      | cons segment right =>
        simp only [List.nil_append, render_cons, List.cons_append, List.cons.injEq] at same
        exact absurd (by simp [same.1]) firstFree
    | cons other second =>
      simp only [List.cons_append, List.cons.injEq] at same
      obtain ⟨rfl, same⟩ := same
      obtain ⟨rfl, rest⟩ := ih (fun member => firstFree (by simp [member]))
        (fun member => secondFree (by simp [member])) same
      exact ⟨rfl, rest⟩

theorem render_injective {left right : List (List α)}
    (leftFree : ∀ segment ∈ left, separator ∉ segment)
    (rightFree : ∀ segment ∈ right, separator ∉ segment)
    (same : render separator left = render separator right) : left = right := by
  induction left generalizing right with
  | nil =>
    cases right with
    | nil => rfl
    | cons segment right => simp at same
  | cons segment left ih =>
    cases right with
    | nil => simp at same
    | cons other right =>
      simp only [render_cons, List.cons.injEq, true_and] at same
      obtain ⟨rfl, rest⟩ := head_unique (leftFree segment (by simp)) (rightFree other (by simp)) same
      rw [ih (fun s member => leftFree s (by simp [member]))
        (fun s member => rightFree s (by simp [member])) rest]

end Library.Segments
