import UclBench.CString

/-!
# UclBench.OpenCL.Lexer

Lexical structure of OpenCL C source: characters to tokens, tokens to
statements.

Both passes are transducers: they read one symbol at a time, keep what is
pending, and emit what is complete.  Reading a concatenation is therefore
reading its parts one after the other (`Reads.append`), which is what makes a
generated program analysable fragment by fragment: the symbolic parts of a
fragment are numerals, read by `lexes_decimal`.
-/

namespace UclBench.OpenCL

/-! ## transducers -/

/-- Feed a list through a transition function that may emit symbols. -/
def transduce (step : σ → α → List β × σ) : σ → List α → List β × σ
  | s, [] => ([], s)
  | s, a :: as => match step s a with
    | (bs, s') => match transduce step s' as with
      | (cs, t) => (bs ++ cs, t)

theorem transduce_append (step : σ → α → List β × σ) (s : σ) (as bs : List α) :
    transduce step s (as ++ bs) =
      ((transduce step s as).1 ++ (transduce step (transduce step s as).2 bs).1,
        (transduce step (transduce step s as).2 bs).2) := by
  induction as generalizing s with
  | nil => rfl
  | cons a as ih => simp only [List.cons_append, transduce, ih, List.append_assoc]

/-! ## tokens -/

inductive Tok where
  | word (w : Text)
  | int (n : Nat)
  | real (digits : Text)
  /-- Operators, read with maximal munch. -/
  | op (s : Text)
  /-- Every other character of the language. -/
  | punct (c : Char)
  /-- A numeral that runs into a letter. -/
  | bad
  deriving DecidableEq, Repr

/-- The token being read. -/
inductive Pending where
  | none
  | word (w : Text)
  | int (ds : Text)
  | real (ds : Text)
  | op (s : Text)
  | bad
  /-- Inside a preprocessor line; such lines produce no tokens. -/
  | directive
  deriving DecidableEq, Repr

def isWordStart (c : Char) : Bool := c.isAlpha || c == '_'

def isWordRest (c : Char) : Bool := c.isAlphanum || c == '_'

def isOperator (c : Char) : Bool := ['+', '-', '*', '/', '<', '='].contains c

/-- The value of a string of decimal digits. -/
def numeral (ds : Text) : Nat := Nat.ofDigitChars 10 ds 0

@[simp] theorem numeral_decimal (n : Nat) : numeral (decimal n) = n := Nat.ofDigitChars_ten_toDigits

/-- The tokens a pending token stands for once it is complete. -/
def Pending.flush : Pending → List Tok
  | .word w => [.word w]
  | .int ds => [.int (numeral ds)]
  | .real ds => [.real ds]
  | .op s => [.op s]
  | .bad => [.bad]
  | .none | .directive => []

/-- The pending token prolonged by a character, if it can be. -/
def Pending.extend (p : Pending) (c : Char) : Option Pending :=
  match p with
  | .word w => if isWordRest c then some (.word (w ++ [c])) else Option.none
  | .int ds =>
      if c.isDigit then some (.int (ds ++ [c]))
      else if c = '.' then some (.real (ds ++ [c]))
      else if isWordRest c then some .bad
      else Option.none
  | .real ds =>
      if c.isDigit then some (.real (ds ++ [c]))
      else if isWordRest c then some .bad
      else Option.none
  | .op [o] => if c = '=' || (c = o && (c = '+' || c = '-')) then some (.op [o, c]) else Option.none
  | .directive => if c = '\n' then some .none else some .directive
  | .op _ | .bad | .none => Option.none

/-- A character that does not prolong the token before it. -/
def startToken (c : Char) : List Tok × Pending :=
  if c.isWhitespace then ([], .none)
  else if isWordStart c then ([], .word [c])
  else if c.isDigit then ([], .int [c])
  else if isOperator c then ([], .op [c])
  else if c = '#' then ([], .directive)
  else ([.punct c], .none)

def lexStep (p : Pending) (c : Char) : List Tok × Pending :=
  match p.extend c with
  | some q => ([], q)
  | none => (p.flush ++ (startToken c).1, (startToken c).2)

/-- Reading `s` with `p` pending produces `ts` and leaves `q` pending. -/
def Lexes (p : Pending) (s : Text) (ts : List Tok) (q : Pending) : Prop :=
  transduce lexStep p s = (ts, q)

theorem Lexes.append {p q r : Pending} {s t : Text} {ts us : List Tok} (hs : Lexes p s ts q)
    (ht : Lexes q t us r) : Lexes p (s ++ t) (ts ++ us) r := by
  unfold Lexes at hs ht ⊢
  simp only [transduce_append, hs, ht]

theorem lexes_flatMap {f : α → Text} {g : α → List Tok} (l : List α)
    (h : ∀ a ∈ l, Lexes .none (f a) (g a) .none) : Lexes .none (l.flatMap f) (l.flatMap g) .none := by
  induction l with
  | nil => rfl
  | cons a l ih =>
      simp only [List.flatMap_cons]
      exact (h a List.mem_cons_self).append (ih fun b hb => h b (List.mem_cons_of_mem a hb))

/-- A literal is read by evaluation. -/
theorem lexes_literal {p q : Pending} {l : List Char} {ts : List Tok}
    (h : transduce lexStep p l = (ts, q)) : Lexes p (String.ofList l).toList ts q := by
  rwa [String.toList_ofList]

/-- A text that does not prolong the token before it. -/
theorem lexes_after {p q : Pending} {c : Char} {s : Text} {ts : List Tok} (hs : s.head? = some c)
    (hc : p.extend c = none) (h : transduce lexStep .none s = (ts, q)) :
    Lexes p s (p.flush ++ ts) q := by
  cases s with
  | nil => contradiction
  | cons c' s =>
      obtain rfl : c' = c := Option.some.inj hs
      have hnone : lexStep .none c' = startToken c' := rfl
      have hp : lexStep p c' = (p.flush ++ (startToken c').1, (startToken c').2) := by rw [lexStep, hc]
      simp only [transduce, hnone, Prod.mk.injEq] at h
      obtain ⟨rfl, rfl⟩ := h
      simp only [Lexes, transduce, hp, List.append_assoc]

theorem lexes_literal_after {p q : Pending} {c : Char} {l : List Char} {ts : List Tok}
    (hc : p.extend c = none) (h : transduce lexStep .none (c :: l) = (ts, q)) :
    Lexes p (String.ofList (c :: l)).toList (p.flush ++ ts) q := by
  rw [String.toList_ofList]
  exact lexes_after rfl hc h

/-! ### numerals -/

theorem isDigit_of_mem_decimal {c : Char} {n : Nat} (h : c ∈ decimal n) : c.isDigit :=
  Nat.isDigit_of_mem_toDigits (by decide) (by decide) h

theorem decimal_ne_nil (n : Nat) : decimal n ≠ [] := Nat.toDigits_ne_nil

/-- Digits prolong a numeral. -/
theorem lexes_int_digits {ds : Text} (hds : ∀ c ∈ ds, c.isDigit) (es : Text) :
    Lexes (.int es) ds [] (.int (es ++ ds)) := by
  induction ds generalizing es with
  | nil => rw [List.append_nil]; rfl
  | cons d ds ih =>
      have hd : d.isDigit := hds d List.mem_cons_self
      have hstep : lexStep (.int es) d = ([], .int (es ++ [d])) := by
        simp [lexStep, Pending.extend, hd]
      have hrest := ih (fun c hc => hds c (List.mem_cons_of_mem d hc)) (es ++ [d])
      unfold Lexes at hrest ⊢
      simp only [transduce, hstep, hrest, List.append_assoc, List.singleton_append, List.append_nil]

/-- Letters and digits prolong a word. -/
theorem lexes_word_rest {cs : Text} (hcs : ∀ c ∈ cs, isWordRest c) (w : Text) :
    Lexes (.word w) cs [] (.word (w ++ cs)) := by
  induction cs generalizing w with
  | nil => rw [List.append_nil]; rfl
  | cons d ds ih =>
      have hstep : lexStep (.word w) d = ([], .word (w ++ [d])) := by
        simp [lexStep, Pending.extend, hcs d List.mem_cons_self]
      have hrest := ih (fun c hc => hcs c (List.mem_cons_of_mem d hc)) (w ++ [d])
      unfold Lexes at hrest ⊢
      simp only [transduce, hstep, hrest, List.append_assoc, List.singleton_append, List.append_nil]

theorem startToken_digit {d : Char} (hd : d.isDigit) : startToken d = ([], .int [d]) := by
  have hspace : d.isWhitespace = false := by
    simp only [Char.isWhitespace, Bool.or_eq_false_iff, decide_eq_false_iff_not]
    refine ⟨⟨⟨?_, ?_⟩, ?_⟩, ?_⟩ <;> (rintro rfl; revert hd; decide)
  have hword : isWordStart d = false := by
    have hne : d ≠ '_' := by rintro rfl; revert hd; decide
    have hval : '0'.val.toNat ≤ d.val.toNat ∧ d.val.toNat ≤ '9'.val.toNat := by
      simpa [Char.isDigit, UInt32.le_iff_toNat_le] using hd
    have halpha : d.isAlpha = (decide ('A'.val ≤ d.val ∧ d.val ≤ 'Z'.val) ||
        (decide ('a'.val ≤ d.val) && decide (d.val ≤ 'z'.val))) := rfl
    simp only [isWordStart, halpha, Bool.or_eq_false_iff, Bool.and_eq_false_iff,
      beq_eq_false_iff_ne, UInt32.le_iff_toNat_le, decide_eq_false_iff_not]
    have hupper : 'A'.val.toNat = 65 := rfl
    have hlower : 'a'.val.toNat = 97 := rfl
    have hnine : '9'.val.toNat = 57 := rfl
    refine ⟨⟨?_, ?_⟩, hne⟩ <;> omega
  simp only [startToken, hspace, hword, hd, if_true, Bool.false_eq_true, if_false]

/-- **Numerals**: after a token that digits do not prolong, `%d` reads as one
pending numeral. -/
theorem lexes_decimal_after {p : Pending} (hp : ∀ d : Char, d.isDigit → p.extend d = none) (n : Nat) :
    Lexes p (decimal n) p.flush (.int (decimal n)) := by
  obtain ⟨d, ds, hds⟩ : ∃ d ds, decimal n = d :: ds := by
    cases h : decimal n with
    | nil => exact absurd h (decimal_ne_nil n)
    | cons d ds => exact ⟨d, ds, rfl⟩
  have hdigits : ∀ c ∈ d :: ds, c.isDigit := fun c hc => isDigit_of_mem_decimal (hds ▸ hc)
  have hd : d.isDigit := hdigits d List.mem_cons_self
  have hstart : Lexes p [d] p.flush (.int [d]) := by
    simp only [Lexes, transduce, lexStep, hp d hd, startToken_digit hd, List.append_nil]
  have hrest := lexes_int_digits (fun c hc => hdigits c (List.mem_cons_of_mem d hc)) [d]
  rw [hds]
  simpa using hstart.append hrest

theorem lexes_decimal (n : Nat) : Lexes .none (decimal n) [] (.int (decimal n)) :=
  lexes_decimal_after (fun _ _ => rfl) n

/-- Digits do not prolong a plus sign. -/
theorem lexes_plus_decimal (n : Nat) : Lexes (.op ['+']) (decimal n) [.op ['+']] (.int (decimal n)) := by
  refine lexes_decimal_after (fun d hd => ?_) n
  have heq : d ≠ '=' := by rintro rfl; revert hd; decide
  have hplus : d ≠ '+' := by rintro rfl; revert hd; decide
  simp [Pending.extend, heq, hplus]

/-- After a letter, `%d` prolongs the word. -/
theorem lexes_word_decimal (w : Text) (n : Nat) :
    Lexes (.word w) (decimal n) [] (.word (w ++ decimal n)) := by
  refine lexes_word_rest (fun c hc => ?_) w
  simp only [isWordRest, Char.isAlphanum, isDigit_of_mem_decimal hc, Bool.or_true, Bool.true_or]

/-! ## statements -/

/-- A delimited run of tokens. -/
inductive Item where
  /-- `…;` -/
  | simple (ts : List Tok)
  /-- `… {` -/
  | openBlock (ts : List Tok)
  /-- `}` -/
  | closeBlock
  /-- A block closed in the middle of a statement. -/
  | bad
  deriving DecidableEq, Repr

/-- The tokens of the statement being read and the number of parentheses open
in it. -/
structure Partial where
  toks : List Tok
  depth : Nat
  deriving DecidableEq, Repr

/-- Between two statements. -/
def Partial.start : Partial := ⟨[], 0⟩

/-- Semicolons and braces delimit statements, except inside parentheses. -/
def splitStep (s : Partial) : Tok → List Item × Partial
  | .punct '(' => ([], ⟨s.toks ++ [.punct '('], s.depth + 1⟩)
  | .punct ')' => ([], ⟨s.toks ++ [.punct ')'], s.depth - 1⟩)
  | .punct ';' =>
      if s.depth = 0 then ([.simple s.toks], .start)
      else ([], ⟨s.toks ++ [.punct ';'], s.depth⟩)
  | .punct '{' => ([.openBlock s.toks], .start)
  | .punct '}' => ([if s.toks = [] then .closeBlock else .bad], .start)
  | t => ([], ⟨s.toks ++ [t], s.depth⟩)

/-- Tokens that neither end a statement nor open or close a parenthesis. -/
def Tok.inert : Tok → Bool
  | .punct c => c != '(' && c != ')' && c != ';' && c != '\x7b' && c != '\x7d'
  | _ => true

/-- Inert tokens prolong the statement being read. -/
theorem split_inert {ts : List Tok} (h : ∀ t ∈ ts, t.inert) (s : Partial) :
    transduce splitStep s ts = ([], ⟨s.toks ++ ts, s.depth⟩) := by
  induction ts generalizing s with
  | nil => rw [List.append_nil]; rfl
  | cons t ts ih =>
      have hstep : splitStep s t = ([], ⟨s.toks ++ [t], s.depth⟩) := by
        have ht := h t List.mem_cons_self
        unfold splitStep
        split <;> simp_all [Tok.inert]
      simp only [transduce, hstep, ih fun u hu => h u (List.mem_cons_of_mem t hu),
        List.append_assoc, List.singleton_append, List.nil_append]

/-- `text` consists of whole statements, and these are `items`. -/
def Reads (text : Text) (items : List Item) : Prop :=
  ∃ ts, Lexes .none text ts .none ∧ transduce splitStep .start ts = (items, .start)

/-- The statements of a source text; fails if the last one is incomplete. -/
def itemsOf (text : Text) : Option (List Item) :=
  match transduce lexStep .none text with
  | (ts, p) => match transduce splitStep .start (ts ++ p.flush) with
    | (items, s) => if s = .start then some items else none

theorem Reads.itemsOf {text : Text} {items : List Item} (h : Reads text items) :
    itemsOf text = some items := by
  obtain ⟨ts, hlex, hsplit⟩ := h
  unfold Lexes at hlex
  simp only [OpenCL.itemsOf, hlex, Pending.flush, List.append_nil, hsplit, if_true]

theorem reads_nil : Reads [] [] := ⟨[], rfl, rfl⟩

/-- **Concatenation**: fragments of whole statements are read one after the
other. -/
theorem Reads.append {s t : Text} {is js : List Item} (hs : Reads s is) (ht : Reads t js) :
    Reads (s ++ t) (is ++ js) := by
  obtain ⟨ts, hlexs, hsplits⟩ := hs
  obtain ⟨us, hlext, hsplitt⟩ := ht
  refine ⟨ts ++ us, hlexs.append hlext, ?_⟩
  simp only [transduce_append, hsplits, hsplitt]

example : itemsOf "  a += b * 0.1; \x7d\n".toList =
    some [.simple [.word ['a'], .op ['+', '='], .word ['b'], .op ['*'], .real ['0', '.', '1']],
      .closeBlock] := by decide +kernel

end UclBench.OpenCL
