import Mathlib.Data.List.Sort
import Mathlib.Data.String.Basic
import Mathlib.Tactic.IntervalCases
import OmniAuth.Codec.Prefix

/-!
# JSON texts

`json.dumps` with `ensure_ascii=False`, `sort_keys=True` and the separators `,` and `:`.
The text of a value is read back from the front of any text that goes on with a comma or a
closing bracket, so two values with one text are the same up to the order of keys.
-/

namespace OmniAuth

open Codec

/-- What `json.dumps` is given. A float is the text `float.__repr__` gives it. -/
inductive Json
  | null
  | bool (b : Bool)
  | int (n : ℤ)
  | float (text : String)
  | str (s : String)
  | arr (items : List Json)
  | obj (entries : List (String × Json))

namespace Json

/-! ## The text -/

/-- `"0123456789abcdef"[n]` -/
def hexDigit (n : ℕ) : Char :=
  if n < 10 then Char.ofNat (48 + n) else Char.ofNat (87 + n)

/-- `py_encode_basestring`, for one character. -/
def escape (c : Char) : List Char :=
  if c = '\\' then ['\\', '\\']
  else if c = '"' then ['\\', '"']
  else if c = Char.ofNat 8 then ['\\', 'b']
  else if c = Char.ofNat 12 then ['\\', 'f']
  else if c = '\n' then ['\\', 'n']
  else if c = '\r' then ['\\', 'r']
  else if c = '\t' then ['\\', 't']
  else if c.toNat < 32 then '\\' :: 'u' :: digits hexDigit 16 4 c.toNat
  else [c]

def quote (s : String) : List Char := '"' :: s.toList.flatMap escape ++ ['"']

/-- `int.__repr__` -/
def intText (n : ℤ) : List Char :=
  if n < 0 then '-' :: Nat.toDigits 10 n.natAbs else Nat.toDigits 10 n.natAbs

mutual

def render : Json → List Char
  | null => ['n', 'u', 'l', 'l']
  | bool true => ['t', 'r', 'u', 'e']
  | bool false => ['f', 'a', 'l', 's', 'e']
  | int n => intText n
  | float text => text.toList
  | str s => quote s
  | arr items => '[' :: renderItems items
  | obj entries => '{' :: renderEntries entries

/-- The items and the closing bracket. -/
def renderItems : List Json → List Char
  | [] => [']']
  | [item] => render item ++ [']']
  | item :: rest => render item ++ ',' :: renderItems rest

def renderEntries : List (String × Json) → List Char
  | [] => ['}']
  | [(k, v)] => quote k ++ ':' :: render v ++ ['}']
  | (k, v) :: rest => quote k ++ ':' :: render v ++ ',' :: renderEntries rest

end

mutual

/-- `sort_keys=True` -/
def sortKeys : Json → Json
  | arr items => arr (sortItems items)
  | obj entries => obj ((sortEntries entries).insertionSort fun e e' => e.1 ≤ e'.1)
  | null => null
  | bool b => bool b
  | int n => int n
  | float text => float text
  | str s => str s

def sortItems : List Json → List Json
  | [] => []
  | item :: rest => sortKeys item :: sortItems rest

def sortEntries : List (String × Json) → List (String × Json)
  | [] => []
  | (k, v) :: rest => (k, sortKeys v) :: sortEntries rest

end

mutual

/-- An integer beyond the interpreter's limit on digits, which `int.__repr__` refuses. -/
def hasWideInt : Json → Bool
  | int n => 4300 < (Nat.toDigits 10 n.natAbs).length
  | arr items => itemsHaveWideInt items
  | obj entries => entriesHaveWideInt entries
  | null | bool _ | float _ | str _ => false

def itemsHaveWideInt : List Json → Bool
  | [] => false
  | item :: rest => hasWideInt item || itemsHaveWideInt rest

def entriesHaveWideInt : List (String × Json) → Bool
  | [] => false
  | (_, v) :: rest => hasWideInt v || entriesHaveWideInt rest

end

mutual

/-- No float anywhere. -/
def Exact : Json → Prop
  | float _ => False
  | arr items => ItemsExact items
  | obj entries => EntriesExact entries
  | null | bool _ | int _ | str _ => True

def ItemsExact : List Json → Prop
  | [] => True
  | item :: rest => Exact item ∧ ItemsExact rest

def EntriesExact : List (String × Json) → Prop
  | [] => True
  | (_, v) :: rest => Exact v ∧ EntriesExact rest

end

/-! ## The sorting of keys -/

theorem mem_sortEntries {es : List (String × Json)} {k : String} {j : Json} :
    (k, j) ∈ sortEntries es ↔ ∃ v, (k, v) ∈ es ∧ sortKeys v = j := by
  induction es with
  | nil => simp [sortEntries]
  | cons e rest ih =>
    obtain ⟨k', v'⟩ := e
    simp only [sortEntries, List.mem_cons, Prod.mk.injEq, ih]
    constructor
    · rintro (⟨rfl, rfl⟩ | ⟨v, hv, hj⟩)
      · exact ⟨v', .inl ⟨rfl, rfl⟩, rfl⟩
      · exact ⟨v, .inr hv, hj⟩
    · rintro ⟨v, ⟨rfl, rfl⟩ | hv, hj⟩
      · exact .inl ⟨rfl, hj.symm⟩
      · exact .inr ⟨v, hv, hj⟩

theorem map_fst_sortEntries (es : List (String × Json)) :
    (sortEntries es).map (·.1) = es.map (·.1) := by
  induction es with
  | nil => rfl
  | cons e rest ih => simp [sortEntries, ih]

theorem sortEntries_perm {es es' : List (String × Json)}
    (h : sortKeys (obj es) = sortKeys (obj es')) : (sortEntries es).Perm (sortEntries es') := by
  have hsort : (sortEntries es).insertionSort (fun e e' => e.1 ≤ e'.1) =
      (sortEntries es').insertionSort (fun e e' => e.1 ≤ e'.1) := by simpa [sortKeys] using h
  have hleft := List.perm_insertionSort (fun e e' : String × Json => e.1 ≤ e'.1) (sortEntries es)
  rw [hsort] at hleft
  exact hleft.symm.trans (List.perm_insertionSort _ _)

theorem entriesExact_iff {es : List (String × Json)} :
    EntriesExact es ↔ ∀ k j, (k, j) ∈ es → j.Exact := by
  induction es with
  | nil => simp [EntriesExact]
  | cons e rest ih =>
    obtain ⟨k', v'⟩ := e
    simp only [EntriesExact, ih, List.mem_cons, Prod.mk.injEq]
    constructor
    · rintro ⟨hv, hrest⟩ k j (⟨-, rfl⟩ | hj)
      · exact hv
      · exact hrest k j hj
    · intro h
      exact ⟨h k' v' (.inl ⟨rfl, rfl⟩), fun k j hj => h k j (.inr hj)⟩

mutual

theorem sortKeys_exact : (j : Json) → j.Exact → (sortKeys j).Exact := by
  intro j hj
  match j with
  | null | bool _ | int _ | str _ => exact hj
  | arr items => exact sortItems_exact items hj
  | obj entries =>
    refine entriesExact_iff.mpr fun k j hmem => ?_
    have hin : (k, j) ∈ sortEntries entries := (List.perm_insertionSort _ _).mem_iff.mp hmem
    exact entriesExact_iff.mp (sortEntries_exact entries hj) k j hin

theorem sortItems_exact : (l : List Json) → ItemsExact l → ItemsExact (sortItems l) := by
  intro l hl
  match l with
  | [] => trivial
  | j :: rest => exact ⟨sortKeys_exact j hl.1, sortItems_exact rest hl.2⟩

theorem sortEntries_exact : (l : List (String × Json)) → EntriesExact l →
    EntriesExact (sortEntries l) := by
  intro l hl
  match l with
  | [] => trivial
  | (_, j) :: rest => exact ⟨sortKeys_exact j hl.1, sortEntries_exact rest hl.2⟩

end

/-! ## Reading back: strings and numbers -/

/-- What an escape sequence stands for. -/
def unescape : List Char → Option (Char × List Char)
  | '\\' :: 'u' :: a :: b :: x :: y :: r =>
      let hexVal (c : Char) : ℕ := ((List.range 16).find? (hexDigit · = c)).getD 0
      some (Char.ofNat (((hexVal a * 16 + hexVal b) * 16 + hexVal x) * 16 + hexVal y), r)
  | '\\' :: 'b' :: r => some (Char.ofNat 8, r)
  | '\\' :: 'f' :: r => some (Char.ofNat 12, r)
  | '\\' :: 'n' :: r => some ('\n', r)
  | '\\' :: 'r' :: r => some ('\r', r)
  | '\\' :: 't' :: r => some ('\t', r)
  | '\\' :: c :: r => some (c, r)
  | c :: r => some (c, r)
  | [] => none

theorem unescape_control (n : ℕ) (hn : n < 32) (r : List Char) :
    unescape (escape (Char.ofNat n) ++ r) = some (Char.ofNat n, r) := by
  interval_cases n <;> rfl

/-- From the blank on only the backslash and the quotation mark are escaped. -/
theorem escape_of_le {c : Char} (hc : 32 ≤ c.toNat) (hslash : c ≠ '\\') (hquote : c ≠ '"') :
    escape c = [c] := by
  have hne : ∀ d : Char, d.toNat < 32 → c ≠ d := by
    intro d hd heq
    subst heq
    omega
  unfold escape
  rw [if_neg hslash, if_neg hquote, if_neg (hne _ (by decide)), if_neg (hne _ (by decide)),
    if_neg (hne _ (by decide)), if_neg (hne _ (by decide)), if_neg (hne _ (by decide)),
    if_neg (by omega)]

theorem unescape_escape (c : Char) (r : List Char) : unescape (escape c ++ r) = some (c, r) := by
  rcases Nat.lt_or_ge c.toNat 32 with hlt | hge
  · have h := unescape_control c.toNat hlt r
    rwa [Char.ofNat_toNat] at h
  by_cases hslash : c = '\\'
  · subst hslash
    rfl
  by_cases hquote : c = '"'
  · subst hquote
    rfl
  rw [escape_of_le hge hslash hquote]
  unfold unescape
  split <;> simp_all

theorem escape_prefixFree : PrefixFree escape := prefixFree_of_read unescape unescape_escape

/-- No escape sequence starts with the mark that ends the string. -/
theorem escape_ne_quote (c : Char) (r r' : List Char) : escape c ++ r ≠ '"' :: r' := by
  intro heq
  by_cases hquote : c = '"'
  · subst hquote
    exact absurd (List.cons.inj heq).1 (by decide)
  unfold escape at heq
  split_ifs at heq <;> simp_all

/-- **A string ends with its closing mark.** -/
theorem quote_prefixFree : PrefixFree quote := by
  intro s t r r' _ _ _ _ heq
  have hbody : s.toList.flatMap escape ++ '"' :: r = t.toList.flatMap escape ++ '"' :: r' := by
    simpa [quote] using heq
  obtain ⟨hs, hr⟩ := escape_prefixFree.flatMap escape_ne_quote _ _ _ _ hbody
  exact ⟨String.toList_injective hs, hr⟩

/-- What an integer's text is made of. -/
def OfInt (c : Char) : Prop := c.isDigit = true ∨ c = '-'

instance (c : Char) : Decidable (OfInt c) := inferInstanceAs (Decidable (_ ∨ _))

theorem ofInt_intText {n : ℤ} {c : Char} (hc : c ∈ intText n) : OfInt c := by
  unfold intText at hc
  split at hc
  · rcases List.mem_cons.mp hc with rfl | hc
    · exact .inr rfl
    · exact .inl (Nat.isDigit_of_mem_toDigits (by decide) (by decide) hc)
  · exact .inl (Nat.isDigit_of_mem_toDigits (by decide) (by decide) hc)

theorem toDigits_injective {m n : ℕ} (h : Nat.toDigits 10 m = Nat.toDigits 10 n) : m = n := by
  rw [← Nat.ofDigitChars_ten_toDigits (n := m), h, Nat.ofDigitChars_ten_toDigits]

theorem minus_notMem_toDigits (n : ℕ) : '-' ∉ Nat.toDigits 10 n := by
  intro hmem
  have h := Nat.isDigit_of_mem_toDigits (by decide : 0 < 10) (by decide) hmem
  exact absurd h (by decide)

theorem intText_injective {m n : ℤ} (h : intText m = intText n) : m = n := by
  unfold intText at h
  split at h <;> split at h
  · have habs := toDigits_injective (List.cons.inj h).2
    omega
  · exact absurd (h ▸ List.mem_cons_self) (minus_notMem_toDigits _)
  · exact absurd (h ▸ List.mem_cons_self) (minus_notMem_toDigits _)
  · have habs := toDigits_injective h
    omega

/-- What may follow a value: nothing, a comma or a closing bracket. -/
def Follows (r : List Char) : Prop := ∀ c ∈ r.head?, c = ',' ∨ c = ']' ∨ c = '}'

theorem Follows.not_ofInt {r : List Char} (h : Follows r) : ∀ c ∈ r.head?, ¬ OfInt c := by
  intro c hc hint
  rcases h c hc with rfl | rfl | rfl <;> exact absurd hint (by decide)

theorem intText_splits : Splits (fun _ => True) Follows intText := by
  intro m n r r' _ _ hr hr' heq
  obtain ⟨htext, hrest⟩ := run_splits (fun _ => ofInt_intText) (fun _ => ofInt_intText)
    hr.not_ofInt hr'.not_ofInt heq
  exact ⟨intText_injective htext, hrest⟩

/-! ## Reading back: values -/

/-- The kinds of values, told apart by the first character. -/
inductive Kind
  | null
  | true
  | false
  | int
  | str
  | arr
  | obj
  deriving DecidableEq

def kindOf (c : Char) : Option Kind :=
  if c = 'n' then some .null
  else if c = 't' then some .true
  else if c = 'f' then some .false
  else if c = '"' then some .str
  else if c = '[' then some .arr
  else if c = '{' then some .obj
  else if OfInt c then some .int
  else none

theorem kindOf_ofInt {c : Char} (h : OfInt c) : kindOf c = some .int := by
  have hne : ∀ d : Char, ¬ OfInt d → c ≠ d := by
    intro d hd heq
    exact hd (heq ▸ h)
  unfold kindOf
  rw [if_neg (hne _ (by decide)), if_neg (hne _ (by decide)), if_neg (hne _ (by decide)),
    if_neg (hne _ (by decide)), if_neg (hne _ (by decide)), if_neg (hne _ (by decide)), if_pos h]

/-- A value without floats at its top. -/
def kind : Json → Kind
  | null => .null
  | bool true => .true
  | bool false => .false
  | int _ | float _ => .int
  | str _ => .str
  | arr _ => .arr
  | obj _ => .obj

theorem intText_ne_nil (n : ℤ) : intText n ≠ [] := by
  unfold intText
  split
  · simp
  · exact Nat.toDigits_ne_nil

/-- The first character of a value's text gives its kind away. -/
theorem kindOf_head (j : Json) (hj : j.Exact) (r : List Char) :
    ∃ c t, render j ++ r = c :: t ∧ kindOf c = some j.kind := by
  cases j with
  | null => exact ⟨_, _, rfl, rfl⟩
  | bool b => cases b <;> exact ⟨_, _, rfl, rfl⟩
  | int n =>
    obtain ⟨c, t, ht⟩ := List.exists_cons_of_ne_nil (intText_ne_nil n)
    have hc : OfInt c := ofInt_intText (n := n) (by simp [ht])
    exact ⟨c, t ++ r, by simp [render, ht], kindOf_ofInt hc⟩
  | float text => exact hj.elim
  | str s => exact ⟨_, _, rfl, rfl⟩
  | arr items => exact ⟨_, _, rfl, rfl⟩
  | obj entries => exact ⟨_, _, rfl, rfl⟩

theorem kind_eq {a b : Json} (ha : a.Exact) (hb : b.Exact) {r r' : List Char}
    (heq : render a ++ r = render b ++ r') : a.kind = b.kind := by
  obtain ⟨c, t, ht, hc⟩ := kindOf_head a ha r
  obtain ⟨d, u, hu, hd⟩ := kindOf_head b hb r'
  have hcd : c = d := (List.cons.inj (ht.symm.trans (heq.trans hu))).1
  exact Option.some.inj (by rw [← hc, ← hd, hcd])

/-- No value starts with the bracket that ends a list. -/
theorem render_ne_close {j : Json} (hj : j.Exact) (r r' : List Char) :
    render j ++ r ≠ ']' :: r' := by
  intro heq
  obtain ⟨c, t, ht, hc⟩ := kindOf_head j hj r
  have hclose : c = ']' := (List.cons.inj (ht.symm.trans heq)).1
  rw [hclose] at hc
  exact absurd hc (by simp [kindOf, OfInt])

/-- After an item: the rest of the list with its comma, or the closing bracket. -/
def itemsTail : List Json → List Char
  | [] => [']']
  | rest => ',' :: renderItems rest

def entriesTail : List (String × Json) → List Char
  | [] => ['}']
  | rest => ',' :: renderEntries rest

theorem renderItems_cons (item : Json) (rest : List Json) :
    renderItems (item :: rest) = render item ++ itemsTail rest := by
  cases rest <;> rfl

theorem renderEntries_cons (k : String) (v : Json) (rest : List (String × Json)) :
    renderEntries ((k, v) :: rest) = quote k ++ ':' :: (render v ++ entriesTail rest) := by
  cases rest <;> simp [renderEntries, entriesTail]

theorem follows_itemsTail (rest : List Json) (r : List Char) : Follows (itemsTail rest ++ r) := by
  cases rest <;> simp [itemsTail, Follows]

theorem follows_entriesTail (rest : List (String × Json)) (r : List Char) :
    Follows (entriesTail rest ++ r) := by
  cases rest <;> simp [entriesTail, Follows]

mutual

/-- **A value is read back from the front of a text.** -/
theorem render_split : (a b : Json) → a.Exact → b.Exact → (r r' : List Char) → Follows r →
    Follows r' → render a ++ r = render b ++ r' → a = b ∧ r = r' := by
  intro a b ha hb r r' hr hr' heq
  have hkind := kind_eq ha hb heq
  match a, b with
  | null, null => exact ⟨rfl, by simpa [render] using heq⟩
  | bool true, bool true => exact ⟨rfl, by simpa [render] using heq⟩
  | bool false, bool false => exact ⟨rfl, by simpa [render] using heq⟩
  | int m, int n =>
    obtain ⟨hmn, hrest⟩ := intText_splits m n r r' trivial trivial hr hr' heq
    exact ⟨by rw [hmn], hrest⟩
  | str s, str t =>
    obtain ⟨hst, hrest⟩ := quote_prefixFree s t r r' trivial trivial trivial trivial heq
    exact ⟨by rw [hst], hrest⟩
  | arr l, arr l' =>
    have hitems : renderItems l ++ r = renderItems l' ++ r' := (List.cons.inj heq).2
    obtain ⟨hl, hrest⟩ := items_split l l' ha hb r r' hitems
    exact ⟨by rw [hl], hrest⟩
  | obj l, obj l' =>
    have hentries : renderEntries l ++ r = renderEntries l' ++ r' := (List.cons.inj heq).2
    obtain ⟨hl, hrest⟩ := entries_split l l' ha hb r r' hentries
    exact ⟨by rw [hl], hrest⟩

theorem items_split : (l l' : List Json) → ItemsExact l → ItemsExact l' → (r r' : List Char) →
    renderItems l ++ r = renderItems l' ++ r' → l = l' ∧ r = r' := by
  intro l l' hl hl' r r' heq
  match l, l' with
  | [], [] => exact ⟨rfl, (List.cons.inj heq).2⟩
  | [], b :: rest' =>
    rw [renderItems_cons, List.append_assoc] at heq
    exact absurd heq.symm (render_ne_close hl'.1 _ _)
  | a :: rest, [] =>
    rw [renderItems_cons, List.append_assoc] at heq
    exact absurd heq (render_ne_close hl.1 _ _)
  | a :: rest, b :: rest' =>
    rw [renderItems_cons, renderItems_cons, List.append_assoc, List.append_assoc] at heq
    obtain ⟨hab, htail⟩ := render_split a b hl.1 hl'.1 _ _ (follows_itemsTail _ _)
      (follows_itemsTail _ _) heq
    -- both lists end here, or both go on with a comma
    match rest, rest' with
    | [], [] => exact ⟨by rw [hab], (List.cons.inj htail).2⟩
    | [], _ :: _ => exact absurd (List.cons.inj htail).1 (by decide)
    | _ :: _, [] => exact absurd (List.cons.inj htail).1 (by decide)
    | c :: rest, d :: rest' =>
      obtain ⟨hrest, hr⟩ := items_split (c :: rest) (d :: rest') hl.2 hl'.2 r r'
        (List.cons.inj htail).2
      exact ⟨by rw [hab, hrest], hr⟩

theorem entries_split : (l l' : List (String × Json)) → EntriesExact l → EntriesExact l' →
    (r r' : List Char) → renderEntries l ++ r = renderEntries l' ++ r' → l = l' ∧ r = r' := by
  intro l l' hl hl' r r' heq
  match l, l' with
  | [], [] => exact ⟨rfl, (List.cons.inj heq).2⟩
  | [], (k', b) :: rest' =>
    rw [renderEntries_cons] at heq
    exact absurd (List.cons.inj heq).1 (by decide)
  | (k, a) :: rest, [] =>
    rw [renderEntries_cons] at heq
    exact absurd (List.cons.inj heq).1 (by decide)
  | (k, a) :: rest, (k', b) :: rest' =>
    simp only [renderEntries_cons, List.append_assoc, List.cons_append] at heq
    obtain ⟨hk, hval⟩ := quote_prefixFree k k' _ _ trivial trivial trivial trivial heq
    obtain ⟨hab, htail⟩ := render_split a b hl.1 hl'.1 _ _ (follows_entriesTail _ _)
      (follows_entriesTail _ _) (List.cons.inj hval).2
    match rest, rest' with
    | [], [] => exact ⟨by rw [hk, hab], (List.cons.inj htail).2⟩
    | [], _ :: _ => exact absurd (List.cons.inj htail).1 (by decide)
    | _ :: _, [] => exact absurd (List.cons.inj htail).1 (by decide)
    | c :: rest, d :: rest' =>
      obtain ⟨hrest, hr⟩ := entries_split (c :: rest) (d :: rest') hl.2 hl'.2 r r'
        (List.cons.inj htail).2
      exact ⟨by rw [hk, hab, hrest], hr⟩

end

/-- **Different values, different texts.** -/
theorem render_injective {a b : Json} (ha : a.Exact) (hb : b.Exact) (h : render a = render b) :
    a = b :=
  (render_split a b ha hb [] [] (by simp [Follows]) (by simp [Follows]) (by rw [h])).1

example : render (obj [("a", arr [int (-12), null]), ("b", str "x\"\n")]) =
    "\x7b\"a\":[-12,null],\"b\":\"x\\\"\\n\"\x7d".toList := by decide

end Json

end OmniAuth
