import Mathlib.Data.Nat.Notation
import Mathlib.Order.Basic

/-! # Quoted texts

The text of a string in JSON, as a host that escapes the characters of HTML writes it.  The escape
of a character is never the start of that of another, so that different strings have different
texts. -/

namespace Text

/-- The character after the backslash, where the escape has two characters. -/
def shortEscape (c : Char) : Option Char :=
  if c = '"' then some '"'
  else if c = '\\' then some '\\'
  else if c = '\n' then some 'n'
  else if c = '\r' then some 'r'
  else if c = '\t' then some 't'
  else if c = '\x08' then some 'b'
  else if c = '\x0c' then some 'f'
  else none

/-- The character that a short escape stands for. -/
def ofShortEscape (d : Char) : Char :=
  if d = 'n' then '\n'
  else if d = 'r' then '\r'
  else if d = 't' then '\t'
  else if d = 'b' then '\x08'
  else if d = 'f' then '\x0c'
  else d

/-- The other control characters, those of HTML, and the separators of lines and paragraphs are
written by their number. -/
def byNumber (c : Char) : Bool :=
  decide (c.toNat < 0x20) || decide (c.toNat ∈ [0x26, 0x3c, 0x3e, 0x2028, 0x2029])

/-- Four hexadecimal digits. -/
def hexDigits (n : ℕ) : List Char :=
  [Nat.digitChar (n / 4096 % 16), Nat.digitChar (n / 256 % 16), Nat.digitChar (n / 16 % 16),
    Nat.digitChar (n % 16)]

def escape (c : Char) : List Char :=
  match shortEscape c with
  | some d => ['\\', d]
  | none => if byNumber c then '\\' :: 'u' :: hexDigits c.toNat else [c]

/-- The text of a string. -/
def quote (s : String) : String := String.ofList ('"' :: (s.toList.flatMap escape ++ ['"']))

/-! ### Escapes -/

variable {c d : Char} {r r' : List Char}

theorem ofShortEscape_eq (h : shortEscape c = some d) : ofShortEscape d = c ∧ d ≠ 'u' := by
  unfold shortEscape at h
  split_ifs at h
  all_goals
    obtain rfl := Option.some.inj h
    subst_vars
    decide

theorem byNumber_lt (h : byNumber c = true) : c.toNat < 65536 := by
  unfold byNumber at h
  simp only [Bool.or_eq_true, decide_eq_true_eq, List.mem_cons, List.not_mem_nil, or_false] at h
  omega

theorem digitChar_inj : ∀ m < 16, ∀ n < 16, Nat.digitChar m = Nat.digitChar n → m = n := by
  decide

theorem hexDigits_inj {m n : ℕ} (hm : m < 65536) (hn : n < 65536) (h : hexDigits m = hexDigits n) :
    m = n := by
  unfold hexDigits at h
  simp only [List.cons.injEq, and_true] at h
  obtain ⟨h3, h2, h1, h0⟩ := h
  have hdigit : ∀ a b : ℕ, Nat.digitChar (a % 16) = Nat.digitChar (b % 16) → a % 16 = b % 16 :=
    fun a b => digitChar_inj _ (Nat.mod_lt a (by decide)) _ (Nat.mod_lt b (by decide))
  have h3' := hdigit _ _ h3
  have h2' := hdigit _ _ h2
  have h1' := hdigit _ _ h1
  have h0' := hdigit _ _ h0
  omega

theorem escape_short (h : shortEscape c = some d) : escape c = ['\\', d] := by
  unfold escape
  rw [h]

theorem escape_number (h : shortEscape c = none) (hc : byNumber c = true) :
    escape c = '\\' :: 'u' :: hexDigits c.toNat := by
  unfold escape
  rw [h]
  exact if_pos hc

theorem escape_plain (h : shortEscape c = none) (hc : ¬ byNumber c = true) : escape c = [c] := by
  unfold escape
  rw [h]
  exact if_neg hc

/-- Only an escape starts with a backslash, and no plain character is a quotation mark. -/
theorem plain_ne (h : shortEscape c = none) : c ≠ '\\' ∧ c ≠ '"' := by
  refine ⟨?_, ?_⟩
  · rintro rfl
    cases h
  · rintro rfl
    cases h

/-- The first escape of a text and the rest of it are read off the text. -/
theorem escape_append_inj (h : escape c ++ r = escape d ++ r') : c = d ∧ r = r' := by
  rcases hc : shortEscape c with _ | c'
  · rcases hd : shortEscape d with _ | d'
    · by_cases hcn : byNumber c = true
      · by_cases hdn : byNumber d = true
        · rw [escape_number hc hcn, escape_number hd hdn] at h
          obtain ⟨hdigits, hrest⟩ := List.append_inj h rfl
          have hnumber : hexDigits c.toNat = hexDigits d.toNat := by
            simpa using hdigits
          have htoNat := hexDigits_inj (byNumber_lt hcn) (byNumber_lt hdn) hnumber
          exact ⟨Char.toNat_inj.mp htoNat, hrest⟩
        · rw [escape_number hc hcn, escape_plain hd hdn] at h
          exact absurd (List.cons.inj h).1.symm (plain_ne hd).1
      · by_cases hdn : byNumber d = true
        · rw [escape_plain hc hcn, escape_number hd hdn] at h
          exact absurd (List.cons.inj h).1 (plain_ne hc).1
        · rw [escape_plain hc hcn, escape_plain hd hdn] at h
          exact List.cons.inj h
    · rw [escape_short hd] at h
      by_cases hcn : byNumber c = true
      · rw [escape_number hc hcn] at h
        exact absurd (List.cons.inj (List.cons.inj h).2).1.symm (ofShortEscape_eq hd).2
      · rw [escape_plain hc hcn] at h
        exact absurd (List.cons.inj h).1 (plain_ne hc).1
  · rw [escape_short hc] at h
    rcases hd : shortEscape d with _ | d'
    · by_cases hdn : byNumber d = true
      · rw [escape_number hd hdn] at h
        exact absurd (List.cons.inj (List.cons.inj h).2).1 (ofShortEscape_eq hc).2
      · rw [escape_plain hd hdn] at h
        exact absurd (List.cons.inj h).1.symm (plain_ne hd).1
    · rw [escape_short hd] at h
      obtain ⟨hchar, hrest⟩ := List.cons.inj (List.cons.inj h).2
      rw [← hchar] at hd
      exact ⟨(ofShortEscape_eq hc).1.symm.trans (ofShortEscape_eq hd).1, hrest⟩

/-- No escape starts with the quotation mark that ends the text. -/
theorem escape_append_ne (h : escape c ++ r = ['"']) : False := by
  rcases hc : shortEscape c with _ | c'
  · by_cases hcn : byNumber c = true
    · rw [escape_number hc hcn] at h
      cases h
    · rw [escape_plain hc hcn] at h
      exact (plain_ne hc).2 (List.cons.inj h).1
  · rw [escape_short hc] at h
    cases h

theorem flatMap_escape_inj : ∀ {l l' : List Char},
    l.flatMap escape ++ ['"'] = l'.flatMap escape ++ ['"'] → l = l'
  | [], [], _ => rfl
  | [], d :: l', h => by
      rw [List.flatMap_cons, List.append_assoc] at h
      exact (escape_append_ne h.symm).elim
  | c :: l, [], h => by
      rw [List.flatMap_cons, List.append_assoc] at h
      exact (escape_append_ne h).elim
  | c :: l, d :: l', h => by
      rw [List.flatMap_cons, List.flatMap_cons, List.append_assoc, List.append_assoc] at h
      obtain ⟨rfl, hrest⟩ := escape_append_inj h
      rw [flatMap_escape_inj hrest]

theorem quote_injective : Function.Injective quote := by
  intro s t h
  unfold quote at h
  have hlist := (List.cons.inj (String.ofList_injective h)).2
  exact String.toList_inj.mp (flatMap_escape_inj hlist)

example : quote "say \"a<b\"" = "\"say \\\"a\\u003cb\\\"\"" := by decide +kernel

end Text
