import Mathlib
import LocusMesh.Text

/-! `json.loads` with an `object_pairs_hook`: the scanner of the `json` module, over any
values that its leaves, lists and hook may build. -/
namespace PyJson

open PyText

/-- A code point of a Python string; a lone half of a surrogate pair is one. -/
inductive CodePoint
  | scalar (c : Char)
  | surrogate (unit : ℕ)
  deriving DecidableEq

abbrev Str := List CodePoint

def str (s : String) : Str := s.toList.map .scalar

def Str.encodable : Str → Option Text
  | [] => some []
  | .scalar c :: s => (Str.encodable s).map (c :: ·)
  | .surrogate _ :: _ => none

/-- The `ValueError`s of a malformed text: those of the decoder, with the number of characters
from their position to the end, and that of `int`, with the number of digits. -/
inductive Malformed
  | decode (message : String) (left : ℕ)
  | digits (count : ℕ)
  deriving DecidableEq

/-- Where the scan of a string stands. -/
inductive StringState
  | plain | escape | hex (digits value : ℕ)

def escapeOf (c : Char) : Option Char :=
  [('"','"'),('\\','\\'),('/','/'),('b','\x08'),('f','\x0c'),('n','\n'),('r','\r'),
    ('t','\t')].lookup c

def hexDigit (c : Char) : Option ℕ :=
  if '0' ≤ c ∧ c ≤ '9' then some (c.toNat - 48)
  else if 'a' ≤ c ∧ c ≤ 'f' then some (c.toNat - 87)
  else if 'A' ≤ c ∧ c ≤ 'F' then some (c.toNat - 55)
  else none

def isHigh (unit : ℕ) : Bool := decide (0xd800 ≤ unit ∧ unit ≤ 0xdbff)
def isLow (unit : ℕ) : Bool := decide (0xdc00 ≤ unit ∧ unit ≤ 0xdfff)

def joinSurrogates (high low : ℕ) : Char :=
  Char.ofNat (0x10000 + (high - 0xd800) * 0x400 + (low - 0xdc00))

def codePoint (unit : ℕ) : CodePoint :=
  if isHigh unit || isLow unit then .surrogate unit else .scalar (Char.ofNat unit)

/-- What four hex digits yield behind a pending high surrogate: the code points that are
settled by them, and the high surrogate that is pending now. -/
def settle (high : Option ℕ) (unit : ℕ) : Str × Option ℕ :=
  match high with
  | some pending =>
    if isLow unit then ([.scalar (joinSurrogates pending unit)],none)
    else if isHigh unit then ([.surrogate pending],some unit)
    else ([.surrogate pending,codePoint unit],none)
  | none => if isHigh unit then ([],some unit) else ([codePoint unit],none)

def flush (high : Option ℕ) : Str := (high.map CodePoint.surrogate).toList

def prepend (settled : Str) (scanned : Except Malformed (Str × Text)) :
    Except Malformed (Str × Text) :=
  scanned.map fun found => (settled ++ found.1,found.2)

/-- `scanstring`, strict, behind the opening quote, which `start` characters of the text begin
with. An escape of four digits is an error where the text ends behind it. -/
def scanString (start : ℕ) (high : Option ℕ) : StringState → Text → Except Malformed (Str × Text)
  | .hex digits _, [] => .error (.decode "Invalid \\uXXXX escape" (5 - digits))
  | _, [] => .error (.decode "Unterminated string starting at" start)
  | .plain, c :: r =>
    if c = '"' then .ok (flush high,r)
    else if c = '\\' then scanString start high .escape r
    else if c.toNat < 32 then .error (.decode "Invalid control character at" (r.length + 1))
    else prepend (flush high ++ [.scalar c]) (scanString start none .plain r)
  | .escape, c :: r =>
    if c = 'u' then scanString start high (.hex 4 0) r
    else match escapeOf c with
      | none => .error (.decode "Invalid \\escape" (r.length + 2))
      | some d => prepend (flush high ++ [.scalar d]) (scanString start none .plain r)
  | .hex digits value, c :: r =>
    match hexDigit c with
    | none => .error (.decode "Invalid \\uXXXX escape" (r.length + 6 - digits))
    | some d =>
      if 1 < digits then scanString start high (.hex (digits - 1) (16 * value + d)) r
      else if r = [] then .error (.decode "Invalid \\uXXXX escape" 5)
      else
        prepend (settle high (16 * value + d)).1
          (scanString start (settle high (16 * value + d)).2 .plain r)

def integerPart : Text → Text × Text
  | '0' :: r => (['0'],r)
  | r => r.span isDigit

def fractionPart : Text → Text × Text
  | '.' :: r => if (r.span isDigit).1 = [] then ([],'.' :: r)
    else ('.' :: (r.span isDigit).1,(r.span isDigit).2)
  | r => ([],r)

def exponentPart (text : Text) : Text × Text :=
  match text with
  | e :: r =>
    if e = 'e' ∨ e = 'E' then
      let signed := r.head?.any fun c => c == '+' || c == '-'
      let sign := if signed then r.take 1 else []
      let (digits,rest) := (if signed then r.drop 1 else r).span isDigit
      if digits = [] then ([],text) else (e :: (sign ++ digits),rest)
    else ([],text)
  | [] => ([],[])

/-- `_match_number`: the sign, the three parts, and what follows. -/
def matchNumber (text : Text) : Option (Text × Text × Text × Text) :=
  let (sign,r) := if text.head? = some '-' then (['-'],text.drop 1) else ([],text)
  let (integer,r) := integerPart r
  if integer = [] then none
  else
    let (fraction,r) := fractionPart r
    let (exponent,r) := exponentPart r
    some (sign ++ integer,fraction,exponent,r)

/-- A value that is neither an object nor an array; of a number, its text. -/
inductive Leaf
  | null
  | bool (b : Bool)
  | number (literal : Text)
  | str (s : Str)
  deriving DecidableEq

def skipWs (text : Text) : Text :=
  text.dropWhile fun c => c == ' ' || c == '\t' || c == '\n' || c == '\r'

def word (w : String) (a : Leaf) (text : Text) : Option (Leaf × Text) :=
  if w.toList.isPrefixOf text then some (a,text.drop w.toList.length) else none

def constants : List (String × Leaf) :=
  [("null",.null),("true",.bool true),("false",.bool false),("NaN",.number "NaN".toList),
    ("Infinity",.number "Infinity".toList),("-Infinity",.number "-Infinity".toList)]

def constant (text : Text) : Option (Leaf × Text) :=
  constants.findSome? fun entry => word entry.1 entry.2 text

/-- The longest integer that `int` converts. -/
def maxDigits : ℕ := 4300

def scanNumber (text : Text) : Except Malformed (Leaf × Text) :=
  match matchNumber text with
  | none => .error (.decode "Expecting value" text.length)
  | some (integer,fraction,exponent,rest) =>
    if fraction = [] ∧ exponent = [] ∧ maxDigits < (integer.filter isDigit).length then
      .error (.digits (integer.filter isDigit).length)
    else .ok (.number (integer ++ fraction ++ exponent),rest)

def scanLeaf : Text → Except Malformed (Leaf × Text)
  | '"' :: r => do
    let (s,rest) ← scanString (r.length + 1) none .plain r
    .ok (.str s,rest)
  | text =>
    match constant text with
    | some found => .ok found
    | none => scanNumber text

/-- What the scanner raises; the hook may raise more. -/
inductive ScanError (ε : Type)
  | malformed (e : Malformed)
  | recursion
  | hook (e : ε)
  deriving DecidableEq

/-- What becomes of the parts of a text; `dict` is the `object_pairs_hook`. -/
structure Builder (ε α : Type) where
  leaf : Leaf → α
  list : List α → α
  dict : List (Str × α) → Except ε α

variable {ε α : Type}

def decoded {β : Type} : Except Malformed β → Except (ScanError ε) β := Except.mapError .malformed

/-- `JSONDecodeError`, at the beginning of the rest of the text. -/
def invalid {β : Type} (message : String) (rest : Text) : Except (ScanError ε) β :=
  .error (.malformed (.decode message rest.length))

/-- Items between commas, up to the closing character. The text is never longer than the
fuel, so that without fuel there is no text. -/
def scanSeparated {β : Type} (item : Text → Except (ScanError ε) (β × Text)) (close : Char)
    (missing : String) : ℕ → List β → Text → Except (ScanError ε) (List β × Text)
  | 0, _, text => invalid missing text
  | fuel + 1, items, text =>
    match item text with
    | .error e => .error e
    | .ok (_,[]) => invalid "Expecting ',' delimiter" []
    | .ok (a,c :: r) =>
      if c = close then .ok (items ++ [a],r)
      else if c = ',' then scanSeparated item close missing fuel (items ++ [a]) (skipWs r)
      else invalid "Expecting ',' delimiter" (c :: r)

section Containers

variable (scan : Text → Except (ScanError ε) (α × Text)) (b : Builder ε α)

def scanMember (text : Text) : Except (ScanError ε) ((Str × α) × Text) :=
  match text with
  | '"' :: r =>
    match decoded (scanString (r.length + 1) none .plain r) with
    | .error e => .error e
    | .ok (key,r) =>
      if (skipWs r).head? = some ':' then
        match scan (skipWs (skipWs r).tail) with
        | .error e => .error e
        | .ok (value,r) => .ok ((key,value),skipWs r)
      else invalid "Expecting ':' delimiter" (skipWs r)
  | _ => invalid "Expecting property name enclosed in double quotes" text

def scanElement (text : Text) : Except (ScanError ε) (α × Text) :=
  match scan text with
  | .error e => .error e
  | .ok (value,r) => .ok (value,skipWs r)

def hooked (pairs : List (Str × α)) (rest : Text) : Except (ScanError ε) (α × Text) :=
  match b.dict pairs with
  | .error e => .error (.hook e)
  | .ok a => .ok (a,rest)

/-- An object behind its opening brace; the hook sees its pairs as they are written. -/
def scanObject (text : Text) : Except (ScanError ε) (α × Text) :=
  if (skipWs text).head? = some '}' then hooked b [] (skipWs text).tail
  else
    match scanSeparated (scanMember scan) '}' "Expecting property name enclosed in double quotes"
      (skipWs text).length [] (skipWs text) with
    | .error e => .error e
    | .ok (pairs,rest) => hooked b pairs rest

def scanArray (text : Text) : Except (ScanError ε) (α × Text) :=
  if (skipWs text).head? = some ']' then .ok (b.list [],(skipWs text).tail)
  else
    match scanSeparated (scanElement scan) ']' "Expecting value" (skipWs text).length []
      (skipWs text) with
    | .error e => .error e
    | .ok (items,rest) => .ok (b.list items,rest)

end Containers

variable (b : Builder ε α)

def scanScalar (text : Text) : Except (ScanError ε) (α × Text) :=
  match scanLeaf text with
  | .error e => .error (.malformed e)
  | .ok (leaf,rest) => .ok (b.leaf leaf,rest)

/-- `scan_once`, with the number of containers that may still be entered. -/
def scanOnce : ℕ → Text → Except (ScanError ε) (α × Text)
  | 0, text =>
    if text.head? = some '{' ∨ text.head? = some '[' then .error .recursion else scanScalar b text
  | limit + 1, text =>
    if text.head? = some '{' then scanObject (scanOnce limit) b text.tail
    else if text.head? = some '[' then scanArray (scanOnce limit) b text.tail
    else scanScalar b text

def loads (limit : ℕ) (text : Text) : Except (ScanError ε) α :=
  if text.head? = some '\uFEFF' then
    invalid "Unexpected UTF-8 BOM (decode using utf-8-sig)" text
  else
    match scanOnce b limit (skipWs text) with
    | .error e => .error e
    | .ok (a,rest) => if skipWs rest = [] then .ok a else invalid "Extra data" (skipWs rest)

section Fuel

theorem skipWs_length (text : Text) : (skipWs text).length ≤ text.length :=
  (List.dropWhile_suffix _).length_le

/-- Where every item takes something off the text, fuel beyond its length changes nothing. -/
theorem scanSeparated_fuel {β : Type} {item : Text → Except (ScanError ε) (β × Text)}
    {close : Char} {missing : String} (hnil : item [] = invalid missing [])
    (hitem : ∀ text a r, item text = .ok (a,r) → r.length < text.length) {fuel : ℕ}
    {items : List β} {text : Text} (hfuel : text.length ≤ fuel) :
    scanSeparated item close missing fuel items text =
      scanSeparated item close missing text.length items text := by
  induction fuel using Nat.strong_induction_on generalizing items text with
  | _ fuel ih =>
    cases fuel with
    | zero =>
      rw [Nat.le_zero.mp hfuel]
    | succ fuel =>
      cases text with
      | nil =>
        simp [scanSeparated,hnil,invalid]
      | cons c text =>
        rw [List.length_cons,scanSeparated,scanSeparated]
        cases h : item (c :: text) with
        | error e => rfl
        | ok found =>
          obtain ⟨a,rest⟩ := found
          cases rest with
          | nil => rfl
          | cons d r =>
            have hshort := hitem _ _ _ h
            have hws := skipWs_length r
            simp only [List.length_cons] at hshort hfuel
            have hmore : scanSeparated item close missing fuel (items ++ [a]) (skipWs r) =
                scanSeparated item close missing text.length (items ++ [a]) (skipWs r) := by
              rw [ih fuel (Nat.lt_succ_self _) (by omega),
                ih text.length (by omega) (by omega)]
            simp only [hmore]

theorem scanString_length {start : ℕ} {high : Option ℕ} {state : StringState} {text : Text}
    {s : Str} {rest : Text} (h : scanString start high state text = .ok (s,rest)) :
    rest.length < text.length := by
  induction text generalizing high state s with
  | nil => cases state <;> cases h
  | cons c r ih =>
    have hmore : ∀ {settled high},
        prepend settled (scanString start high .plain r) = .ok (s,rest) →
        rest.length < r.length + 1 := by
      intro settled high hprepend
      cases hscan : scanString start high .plain r with
      | error e =>
        rw [hscan] at hprepend
        cases hprepend
      | ok found =>
        rw [hscan] at hprepend
        cases hprepend
        exact (ih hscan).trans (Nat.lt_succ_self _)
    rw [List.length_cons]
    cases state with
    | plain =>
      rw [scanString] at h
      split_ifs at h with hquote hslash hcontrol
      · cases h
        exact Nat.lt_succ_self _
      · exact (ih h).trans (Nat.lt_succ_self _)
      · exact hmore h
    | escape =>
      rw [scanString] at h
      split_ifs at h with hu
      · exact (ih h).trans (Nat.lt_succ_self _)
      · cases hescape : escapeOf c with
        | none => simp [hescape] at h
        | some d =>
          simp only [hescape] at h
          exact hmore h
    | hex digits value =>
      rw [scanString] at h
      cases hdigit : hexDigit c with
      | none => simp [hdigit] at h
      | some d =>
        simp only [hdigit] at h
        split_ifs at h with hmoreDigits hend
        · exact (ih h).trans (Nat.lt_succ_self _)
        · exact hmore h

theorem span_length (p : Char → Bool) (text : Text) :
    (text.span p).1.length + (text.span p).2.length = text.length := by
  rw [List.span_eq_takeWhile_dropWhile,← List.length_append,List.takeWhile_append_dropWhile]

theorem integerPart_length (text : Text) :
    (integerPart text).1.length + (integerPart text).2.length = text.length := by
  unfold integerPart
  split
  · simp [Nat.add_comm]
  · exact span_length _ _

theorem fractionPart_length (text : Text) : (fractionPart text).2.length ≤ text.length := by
  unfold fractionPart
  split
  · rename_i r
    have h := span_length isDigit r
    split_ifs
    · exact le_refl _
    · simp only [List.length_cons]
      omega
  · exact le_refl _

theorem exponentPart_length (text : Text) : (exponentPart text).2.length ≤ text.length := by
  cases text with
  | nil => exact le_refl _
  | cons e r =>
    have h := span_length isDigit (if r.head?.any fun c => c == '+' || c == '-' then r.drop 1 else r)
    simp only [exponentPart]
    split_ifs at h ⊢ <;> simp_all <;> omega

theorem word_length {w : String} {a b : Leaf} {text rest : Text} (hw : w.toList ≠ [])
    (h : word w a text = some (b,rest)) : rest.length < text.length := by
  unfold word at h
  split_ifs at h with hfound
  rw [Option.some.injEq,Prod.mk.injEq] at h
  have hlength := (List.isPrefixOf_iff_prefix.mp hfound).length_le
  have hpos := List.length_pos_of_ne_nil hw
  rw [← h.2,List.length_drop]
  omega

theorem constant_length {text rest : Text} {a : Leaf} (h : constant text = some (a,rest)) :
    rest.length < text.length := by
  obtain ⟨entry,hmem,hentry⟩ := List.exists_of_findSome?_eq_some h
  have hne : ∀ entry ∈ constants, entry.1.toList ≠ [] := by simp [constants]
  exact word_length (hne entry hmem) hentry

theorem scanNumber_length {text rest : Text} {a : Leaf} (h : scanNumber text = .ok (a,rest)) :
    rest.length < text.length := by
  unfold scanNumber at h
  cases hnumber : matchNumber text with
  | none => simp [hnumber] at h
  | some parts =>
    obtain ⟨integer,fraction,exponent,r⟩ := parts
    simp only [hnumber] at h
    split_ifs at h with hdigits
    cases h
    unfold matchNumber at hnumber
    simp only at hnumber
    split_ifs at hnumber with hsign hempty hempty
    all_goals
      simp only [Option.some.injEq,Prod.mk.injEq] at hnumber hempty
      rw [← hnumber.2.2.2]
    · have hint := integerPart_length (text.drop 1)
      have hfraction := fractionPart_length (integerPart (text.drop 1)).2
      have hexponent := exponentPart_length (fractionPart (integerPart (text.drop 1)).2).2
      have hpos := List.length_pos_of_ne_nil hempty
      rw [List.length_drop] at hint
      omega
    · have hint := integerPart_length text
      have hfraction := fractionPart_length (integerPart text).2
      have hexponent := exponentPart_length (fractionPart (integerPart text).2).2
      have hpos := List.length_pos_of_ne_nil hempty
      omega

theorem scanLeaf_length {text rest : Text} {a : Leaf} (h : scanLeaf text = .ok (a,rest)) :
    rest.length < text.length := by
  unfold scanLeaf at h
  split at h
  · rename_i r
    cases hstring : scanString (r.length + 1) none .plain r with
    | error e =>
      rw [hstring] at h
      cases h
    | ok found =>
      rw [hstring] at h
      cases h
      exact (scanString_length hstring).trans (Nat.lt_succ_self _)
  · split at h
    · rename_i found hfound
      cases h
      exact constant_length hfound
    · exact scanNumber_length h

variable {scan : Text → Except (ScanError ε) (α × Text)} {b : Builder ε α}

theorem scanMember_length (hscan : ∀ text a r, scan text = .ok (a,r) → r.length < text.length)
    {text r : Text} {pair : Str × α} (h : scanMember scan text = .ok (pair,r)) :
    r.length < text.length := by
  unfold scanMember at h
  split at h
  · rename_i text
    cases hkey : scanString (text.length + 1) none .plain text with
    | error e => simp [hkey,decoded,Except.mapError] at h
    | ok found =>
      have hshort := scanString_length hkey
      have hws := skipWs_length found.2
      simp only [hkey,decoded,Except.mapError] at h
      split_ifs at h with hcolon
      · cases hvalue : scan (skipWs (skipWs found.2).tail) with
        | error e => simp [hvalue] at h
        | ok value =>
          have hless := hscan _ _ _ hvalue
          have hrest := skipWs_length value.2
          have htail := skipWs_length (skipWs found.2).tail
          simp only [hvalue] at h
          cases h
          simp only [List.length_tail,List.length_cons] at *
          omega
      · cases h
  · cases h

theorem scanElement_length (hscan : ∀ text a r, scan text = .ok (a,r) → r.length < text.length)
    {text r : Text} {a : α} (h : scanElement scan text = .ok (a,r)) : r.length < text.length := by
  unfold scanElement at h
  cases hvalue : scan text with
  | error e => simp [hvalue] at h
  | ok value =>
    have hless := hscan _ _ _ hvalue
    have hrest := skipWs_length value.2
    simp only [hvalue] at h
    cases h
    omega

theorem scanSeparated_length {β : Type} {item : Text → Except (ScanError ε) (β × Text)}
    {close : Char} {missing : String}
    (hitem : ∀ text a r, item text = .ok (a,r) → r.length < text.length) {fuel : ℕ}
    {items out : List β} {text rest : Text}
    (h : scanSeparated item close missing fuel items text = .ok (out,rest)) :
    rest.length < text.length := by
  induction fuel generalizing items text with
  | zero => cases h
  | succ fuel ih =>
    rw [scanSeparated] at h
    cases hfound : item text with
    | error e => simp [hfound] at h
    | ok found =>
      obtain ⟨a,r⟩ := found
      have hless := hitem _ _ _ hfound
      cases r with
      | nil => simp [hfound,invalid] at h
      | cons c r =>
        have hws := skipWs_length r
        simp only [hfound] at h
        simp only [List.length_cons] at hless
        split_ifs at h with hclose hcomma
        · cases h
          omega
        · have hmore := ih h
          omega
        · cases h

theorem hooked_length {pairs : List (Str × α)} {r rest : Text} {a : α}
    (h : hooked b pairs r = .ok (a,rest)) : rest = r := by
  unfold hooked at h
  cases hdict : b.dict pairs <;> simp_all

theorem scanObject_length (hscan : ∀ text a r, scan text = .ok (a,r) → r.length < text.length)
    {text rest : Text} {a : α} (h : scanObject scan b text = .ok (a,rest)) :
    rest.length ≤ text.length := by
  have hws := skipWs_length text
  unfold scanObject at h
  split_ifs at h with hclose
  · rw [hooked_length h,List.length_tail]
    omega
  · cases hpairs : scanSeparated (scanMember scan) '}'
      "Expecting property name enclosed in double quotes" (skipWs text).length []
      (skipWs text) with
    | error e => simp [hpairs] at h
    | ok found =>
      have hless := scanSeparated_length (fun _ _ _ => scanMember_length hscan) hpairs
      simp only [hpairs] at h
      rw [hooked_length h]
      omega

theorem scanArray_length (hscan : ∀ text a r, scan text = .ok (a,r) → r.length < text.length)
    {text rest : Text} {a : α} (h : scanArray scan b text = .ok (a,rest)) :
    rest.length ≤ text.length := by
  have hws := skipWs_length text
  unfold scanArray at h
  split_ifs at h with hclose
  · cases h
    rw [List.length_tail]
    omega
  · cases hitems : scanSeparated (scanElement scan) ']' "Expecting value" (skipWs text).length []
      (skipWs text) with
    | error e => simp [hitems] at h
    | ok found =>
      have hless := scanSeparated_length (fun _ _ _ => scanElement_length hscan) hitems
      simp only [hitems] at h
      cases h
      omega

theorem scanScalar_length {text rest : Text} {a : α} (h : scanScalar b text = .ok (a,rest)) :
    rest.length < text.length := by
  unfold scanScalar at h
  cases hleaf : scanLeaf text with
  | error e => simp [hleaf] at h
  | ok found =>
    simp only [hleaf] at h
    cases h
    exact scanLeaf_length hleaf

theorem scanOnce_length {limit : ℕ} {text rest : Text} {a : α}
    (h : scanOnce b limit text = .ok (a,rest)) : rest.length < text.length := by
  induction limit generalizing text a rest with
  | zero =>
    rw [scanOnce] at h
    split_ifs at h with hdeep
    exact scanScalar_length h
  | succ limit ih =>
    rw [scanOnce] at h
    have hpos : ∀ {c : Char}, text.head? = some c → 0 < text.length := by
      intro c hhead
      cases text with
      | nil => cases hhead
      | cons d text => exact Nat.succ_pos _
    split_ifs at h with hobject harray
    · have hless := scanObject_length (fun _ _ _ => ih) h
      have hne := hpos hobject
      rw [List.length_tail] at hless
      omega
    · have hless := scanArray_length (fun _ _ _ => ih) h
      have hne := hpos harray
      rw [List.length_tail] at hless
      omega
    · exact scanScalar_length h

/-- No fuel but the length of the text is ever needed for members or for elements. -/
theorem fuel_suffices {limit fuel : ℕ} {text : Text} (h : text.length ≤ fuel) :
    (∀ pairs, scanSeparated (scanMember (scanOnce b limit)) '}'
        "Expecting property name enclosed in double quotes" fuel pairs text =
      scanSeparated (scanMember (scanOnce b limit)) '}'
        "Expecting property name enclosed in double quotes" text.length pairs text) ∧
    ∀ items, scanSeparated (scanElement (scanOnce b limit)) ']' "Expecting value" fuel items text =
      scanSeparated (scanElement (scanOnce b limit)) ']' "Expecting value" text.length items
        text := by
  have hmember : scanMember (scanOnce b limit) [] =
      invalid "Expecting property name enclosed in double quotes" [] := rfl
  have helement : scanElement (scanOnce b limit) [] = invalid "Expecting value" [] := by
    cases limit <;> rfl
  exact ⟨fun _ => scanSeparated_fuel hmember
      (fun _ _ _ => scanMember_length fun _ _ _ => scanOnce_length) h,
    fun _ => scanSeparated_fuel helement
      (fun _ _ _ => scanElement_length fun _ _ _ => scanOnce_length) h⟩

end Fuel

end PyJson
