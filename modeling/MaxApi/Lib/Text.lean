import Mathlib.Data.List.DropRight
import Mathlib.Data.List.TakeWhile

/-! # Text

The string functions of the host language that decisions depend on, over the characters of the
string, so that they evaluate.  Those with the name of a function of the `strings` package are that
function; `likeBetween` is the SQL pattern with one `%` between two constant parts, under a
collation that tells cases apart, and `likeBetweenFold` under any other. -/

namespace Text

/-- White space in the sense of `unicode.IsSpace`. -/
def isSpace (c : Char) : Bool :=
  c == '\t' || c == '\n' || c.val == 0x0B || c.val == 0x0C || c == '\r' || c == ' ' ||
    c.val == 0x85 || c.val == 0xA0 || c.val == 0x1680 ||
    (0x2000 ≤ c.val && c.val ≤ 0x200A) || c.val == 0x2028 || c.val == 0x2029 ||
    c.val == 0x202F || c.val == 0x205F || c.val == 0x3000

/-- Strip the characters that satisfy `p` from both ends. -/
def trim (p : Char → Bool) (l : List Char) : List Char := (l.dropWhile p).rdropWhile p

/-- `strings.TrimSpace`. -/
def trimSpace (s : String) : String := String.ofList (trim isSpace s.toList)

/-- `TRIM(s)` of SQL, which strips blanks only. -/
def sqlTrim (s : String) : String := String.ofList (trim (· == ' ') s.toList)

/-- A list that has been trimmed is not trimmed any further. -/
theorem trim_trim {p q : Char → Bool} (h : ∀ c, q c → p c) (l : List Char) :
    trim q (trim p l) = trim p l := by
  have hlast : ∀ hm : trim p l ≠ [], ¬ q ((trim p l).getLast hm) := fun hm hq =>
    List.rdropWhile_last_not p _ hm (h _ hq)
  have hhead : ∀ hm : trim p l ≠ [], ¬ q ((trim p l).head hm) := by
    intro hm hq
    have hpre : trim p l <+: l.dropWhile p := List.rdropWhile_prefix p _
    rw [hpre.head hm] at hq
    have hnot := List.head_dropWhile_not p (List.IsPrefix.ne_nil hpre hm)
    rw [h _ hq] at hnot
    exact absurd hnot (by decide)
  have hdrop : (trim p l).dropWhile q = trim p l := by
    rw [List.dropWhile_eq_self_iff]
    intro hlen hq
    rw [List.getElem_zero] at hq
    exact hhead (List.ne_nil_of_length_pos hlen) hq
  show ((trim p l).dropWhile q).rdropWhile q = trim p l
  rw [hdrop, List.rdropWhile_eq_self_iff]
  exact hlast

theorem trimSpace_trimSpace (s : String) : trimSpace (trimSpace s) = trimSpace s := by
  unfold trimSpace
  rw [String.toList_ofList, trim_trim fun _ => id]

/-- `strings.TrimSpace(s) == ""`. -/
def isBlank (s : String) : Bool := s.toList.all isSpace

/-- `strings.HasPrefix`. -/
def hasPrefix (s p : String) : Bool := p.toList.isPrefixOf s.toList

/-- `strings.HasSuffix`. -/
def hasSuffix (s p : String) : Bool := p.toList.isSuffixOf s.toList

/-- `strings.Split`, by one character. -/
def split (s : String) (sep : Char) : List String := (s.toList.splitOn sep).map String.ofList

/-- `strings.Contains`. -/
def contains (s sub : String) : Bool := s.toList.tails.any sub.toList.isPrefixOf

/-- A list with the first occurrence of another one replaced; the empty one occurs at the start. -/
def replaceOnce (old new : List Char) : List Char → List Char
  | [] => if old = [] then new else []
  | c :: cs =>
      if old.isPrefixOf (c :: cs) then new ++ (c :: cs).drop old.length
      else c :: replaceOnce old new cs

/-- `strings.Replace(s, old, new, 1)`. -/
def replaceFirst (s old new : String) : String :=
  String.ofList (replaceOnce old.toList new.toList s.toList)

/-- `strings.TrimPrefix`. -/
def trimPrefix (s p : String) : String :=
  if hasPrefix s p then String.ofList (s.toList.drop p.toList.length) else s

/-- `strings.TrimSuffix`. -/
def trimSuffix (s p : String) : String :=
  if hasSuffix s p then String.ofList (s.toList.take (s.toList.length - p.toList.length)) else s

/-- `unicode.ToLower`, where the result is an ASCII character. -/
def lowerChar (c : Char) : Char :=
  if c.val = 0x212A then 'k' else if c.val = 0x130 then 'i' else c.toLower

/-- `strings.ToLower`, for comparisons with ASCII text. -/
def toLower (s : String) : String := String.ofList (s.toList.map lowerChar)

/-- `unicode.ToUpper`, where the result is an ASCII character. -/
def upperChar (c : Char) : Char :=
  if c.val = 0x17F then 'S' else if c.val = 0x131 then 'I' else c.toUpper

/-- `strings.ToUpper`, for comparisons with ASCII text. -/
def toUpper (s : String) : String := String.ofList (s.toList.map upperChar)

/-- The characters that `strings.EqualFold` takes for one ASCII letter. -/
def foldChar (c : Char) : Char :=
  if c.val = 0x212A then 'k' else if c.val = 0x17F then 's' else c.toLower

/-- `strings.EqualFold`, for comparisons with ASCII text. -/
def equalFold (s t : String) : Bool := s.toList.map foldChar = t.toList.map foldChar

/-- `s LIKE 'p%q'`. -/
def likeBetween (s p q : String) : Bool :=
  hasPrefix s p && hasSuffix s q && decide (p.toList.length + q.toList.length ≤ s.toList.length)

/-- `s LIKE 'p%q'`, where the characters are compared by what `fold` makes of them. -/
def likeBetweenFold (fold : Char → Char) (s p q : String) : Bool :=
  (p.toList.map fold).isPrefixOf (s.toList.map fold) &&
    (q.toList.map fold).isSuffixOf (s.toList.map fold) &&
      decide (p.toList.length + q.toList.length ≤ s.toList.length)

theorem likeBetweenFold_id (s p q : String) : likeBetweenFold id s p q = likeBetween s p q := by
  simp only [likeBetweenFold, likeBetween, hasPrefix, hasSuffix, List.map_id]

/-- A text between the two parts is like the pattern under every collation. -/
theorem likeBetweenFold_parts (fold : Char → Char) (p x q : String) :
    likeBetweenFold fold (p ++ x ++ q) p q = true := by
  have hstart : p.toList <+: (p ++ x ++ q).toList := by
    rw [String.append_assoc, String.toList_append]
    exact List.prefix_append _ _
  have hsuffix : q.toList <:+ (p ++ x ++ q).toList := by
    rw [String.toList_append]
    exact List.suffix_append _ _
  simp only [likeBetweenFold, Bool.and_eq_true, List.isPrefixOf_iff_prefix,
    List.isSuffixOf_iff_suffix, decide_eq_true_eq]
  refine ⟨⟨hstart.map fold, hsuffix.map fold⟩, ?_⟩
  simp only [String.toList_append, List.length_append]
  omega

/-- A text with another first character is not. -/
theorem likeBetweenFold_head {fold : Char → Char} {s p : String} {a b : Char} {l k : List Char}
    (hs : s.toList = a :: l) (hp : p.toList = b :: k) (h : fold b ≠ fold a) (q : String) :
    likeBetweenFold fold s p q = false := by
  unfold likeBetweenFold
  have hfirst : (p.toList.map fold).isPrefixOf (s.toList.map fold) = false := by
    rw [hs, hp]
    simp [List.isPrefixOf, h]
  rw [hfirst]
  rfl

end Text
