import Gic.Document.Draft
import Mathlib.Tactic.IntervalCases

/-!
# Documents are read as they are written

A document is read token by token into a draft. This module says what the tokens
of a document are and how a token may be spelled, and shows that the document is
found again, unless it is nested deeper than a draft may be.

## The model

* `tokens` — the tokens of a document, one after the other.
* `depth` — how many arrays and objects are nested in a document.
* `Spells` — a text spells a document if its tokens are those of the document,
  whatever blanks are between them and however texts and numbers are written.
* `IntegersFit` — a document in which every integer has 64 bits, so that there is
  a text that spells it.

## What is proved

* `takeAll_tokens` — a draft that awaits a value takes all tokens of a document
  and goes on with the document in that place. By induction on the document, and
  on the items and fields that are still to come.
* `ofTokens?_tokens` — a document is read from its tokens exactly if it is nested
  no deeper than is allowed.
* `Token.readAll_spelled` — tokens are read as they are spelled.
* `exists_spells`, `ofText?_of_spells` — there is a text for every document, and
  every text that spells a document is read as the document.
-/

namespace Gic.Document

mutual

/-- The tokens of a document. -/
def tokens : Document → List Token
  | .null => [.plain .null]
  | .bool value => [.plain (.bool value)]
  | .integer value => [.plain (.integer value)]
  | .real => [.plain .real]
  | .text value => [.text value]
  | .array items => .beginArray :: itemTokens items
  | .object fields => .beginObject :: fieldTokens fields

/-- The tokens of an array after its opening bracket. -/
def itemTokens : List Document → List Token
  | [] => [.endArray]
  | d :: rest => d.tokens ++ moreItemTokens rest

/-- The tokens of an array after some of its items. -/
def moreItemTokens : List Document → List Token
  | [] => [.endArray]
  | d :: rest => .comma :: (d.tokens ++ moreItemTokens rest)

/-- The tokens of an object after its opening brace. -/
def fieldTokens : List (String × Document) → List Token
  | [] => [.endObject]
  | (key, d) :: rest => .text key :: .colon :: (d.tokens ++ moreFieldTokens rest)

/-- The tokens of an object after some of its fields. -/
def moreFieldTokens : List (String × Document) → List Token
  | [] => [.endObject]
  | (key, d) :: rest => .comma :: .text key :: .colon :: (d.tokens ++ moreFieldTokens rest)

end

mutual

/-- How many arrays and objects are nested in a document. -/
def depth : Document → Nat
  | .array items => depthOfItems items + 1
  | .object fields => depthOfFields fields + 1
  | _ => 0

/-- How many arrays and objects are nested in one of several documents. -/
def depthOfItems : List Document → Nat
  | [] => 0
  | d :: rest => max d.depth (depthOfItems rest)

/-- How many arrays and objects are nested in the value of one of several fields. -/
def depthOfFields : List (String × Document) → Nat
  | [] => 0
  | (_, d) :: rest => max d.depth (depthOfFields rest)

end

/-! ### A draft grows by a whole document -/

/-- Takes tokens one after the other. -/
def Draft.takeAll (d : Draft) (tokens : List Token) : Option Draft := tokens.foldlM Draft.take d

theorem takeAll_cons {d d' : Draft} {t : Token} (h : d.take t = some d') (rest : List Token) :
    d.takeAll (t :: rest) = d'.takeAll rest := by
  rw [Draft.takeAll, List.foldlM_cons, h]
  rfl

theorem takeAll_cons_none {d : Draft} {t : Token} (h : d.take t = none) (rest : List Token) :
    d.takeAll (t :: rest) = none := by
  rw [Draft.takeAll, List.foldlM_cons, h]
  rfl

/-- A document that is a single token is put where it is awaited. -/
theorem takeAll_single {d : Document} {t : Token} (htokens : d.tokens = [t]) (hdepth : d.depth = 0)
    {frames : List Frame} (htake : Draft.take ⟨frames, .value⟩ t = some (Draft.put d frames))
    (h : frames.length ≤ maxNesting) (rest : List Token) :
    (⟨frames, .value⟩ : Draft).takeAll (d.tokens ++ rest)
      = if frames.length + d.depth ≤ maxNesting then (Draft.put d frames).takeAll rest
        else none := by
  rw [htokens, hdepth, Nat.add_zero, if_pos h]
  exact takeAll_cons htake rest

/-- The items of an array are taken as if there had been some before. -/
theorem takeAll_items (frames : List Frame) (items : List Document) (rest : List Token) :
    (⟨frames, .firstItem⟩ : Draft).takeAll (itemTokens items ++ rest)
      = (⟨frames, .afterItem []⟩ : Draft).takeAll (moreItemTokens items ++ rest) := by
  cases items with
  | nil => rfl
  | cons d items =>
    rw [itemTokens, moreItemTokens, List.cons_append, takeAll_cons rfl]
    cases d <;> rfl

/-- The fields of an object are taken as if there had been some before. -/
theorem takeAll_fields (frames : List Frame) (fields : List (String × Document))
    (rest : List Token) :
    (⟨frames, .firstKey⟩ : Draft).takeAll (fieldTokens fields ++ rest)
      = (⟨frames, .afterField []⟩ : Draft).takeAll (moreFieldTokens fields ++ rest) := by
  cases fields with
  | nil => rfl
  | cons f fields => rfl

mutual

theorem takeAll_tokens : ∀ (d : Document) {frames : List Frame}, frames.length ≤ maxNesting →
    ∀ rest : List Token, (⟨frames, .value⟩ : Draft).takeAll (d.tokens ++ rest)
      = if frames.length + d.depth ≤ maxNesting then (Draft.put d frames).takeAll rest else none
  | .null, _, h, rest => takeAll_single rfl rfl rfl h rest
  | .bool _, _, h, rest => takeAll_single rfl rfl rfl h rest
  | .integer _, _, h, rest => takeAll_single rfl rfl rfl h rest
  | .real, _, h, rest => takeAll_single rfl rfl rfl h rest
  | .text _, _, h, rest => takeAll_single rfl rfl rfl h rest
  | .array items, frames, h, rest => by
    rw [tokens, depth, List.cons_append]
    by_cases hopen : frames.length < maxNesting
    · have henter : Draft.take ⟨frames, .value⟩ .beginArray = some ⟨frames, .firstItem⟩ :=
        if_pos hopen
      rw [takeAll_cons henter, takeAll_items, takeAll_moreItems items [] hopen]
      rfl
    · have henter : Draft.take ⟨frames, .value⟩ .beginArray = none := if_neg hopen
      rw [takeAll_cons_none henter, if_neg (by omega)]
  | .object fields, frames, h, rest => by
    rw [tokens, depth, List.cons_append]
    by_cases hopen : frames.length < maxNesting
    · have henter : Draft.take ⟨frames, .value⟩ .beginObject = some ⟨frames, .firstKey⟩ :=
        if_pos hopen
      rw [takeAll_cons henter, takeAll_fields, takeAll_moreFields fields [] hopen]
      rfl
    · have henter : Draft.take ⟨frames, .value⟩ .beginObject = none := if_neg hopen
      rw [takeAll_cons_none henter, if_neg (by omega)]

theorem takeAll_moreItems : ∀ (items before : List Document) {frames : List Frame},
    frames.length < maxNesting → ∀ rest : List Token,
      (⟨frames, .afterItem before⟩ : Draft).takeAll (moreItemTokens items ++ rest)
        = if frames.length + (depthOfItems items + 1) ≤ maxNesting then
            (Draft.put (.array (before.reverse ++ items)) frames).takeAll rest
          else none
  | [], before, frames, h, rest => by
    rw [moreItemTokens, depthOfItems, if_pos (by omega), List.append_nil]
    rfl
  | d :: items, before, frames, h, rest => by
    have hcomma : Draft.take ⟨frames, .afterItem before⟩ .comma
        = some ⟨.array before :: frames, .value⟩ := rfl
    have hlen : (Frame.array before :: frames).length ≤ maxNesting := h
    rw [moreItemTokens, List.cons_append, List.append_assoc, takeAll_cons hcomma,
      takeAll_tokens d hlen, List.length_cons, depthOfItems]
    by_cases hd : frames.length + 1 + d.depth ≤ maxNesting
    · rw [if_pos hd, Draft.put, takeAll_moreItems items (d :: before) h, List.reverse_cons,
        List.append_assoc, List.singleton_append]
      congr 1
      rw [eq_iff_iff]
      omega
    · rw [if_neg hd, if_neg (by omega)]

theorem takeAll_moreFields : ∀ (fields before : List (String × Document)) {frames : List Frame},
    frames.length < maxNesting → ∀ rest : List Token,
      (⟨frames, .afterField before⟩ : Draft).takeAll (moreFieldTokens fields ++ rest)
        = if frames.length + (depthOfFields fields + 1) ≤ maxNesting then
            (Draft.put (.object (before.reverse ++ fields)) frames).takeAll rest
          else none
  | [], before, frames, h, rest => by
    rw [moreFieldTokens, depthOfFields, if_pos (by omega), List.append_nil]
    rfl
  | (key, d) :: fields, before, frames, h, rest => by
    have hcomma : Draft.take ⟨frames, .afterField before⟩ .comma = some ⟨frames, .key before⟩ := rfl
    have hkey : Draft.take ⟨frames, .key before⟩ (.text key)
        = some ⟨frames, .colon before key⟩ := rfl
    have hcolon : Draft.take ⟨frames, .colon before key⟩ .colon
        = some ⟨.object before key :: frames, .value⟩ := rfl
    have hlen : (Frame.object before key :: frames).length ≤ maxNesting := h
    rw [moreFieldTokens, List.cons_append, List.cons_append, List.cons_append, List.append_assoc,
      takeAll_cons hcomma, takeAll_cons hkey, takeAll_cons hcolon, takeAll_tokens d hlen,
      List.length_cons, depthOfFields]
    by_cases hd : frames.length + 1 + d.depth ≤ maxNesting
    · rw [if_pos hd, Draft.put, takeAll_moreFields fields ((key, d) :: before) h,
        List.reverse_cons, List.append_assoc, List.singleton_append]
      congr 1
      rw [eq_iff_iff]
      omega
    · rw [if_neg hd, if_neg (by omega)]

end

/-- A document is read from its tokens, unless it is nested too deep. -/
theorem ofTokens?_tokens (d : Document) :
    ofTokens? d.tokens = if d.depth ≤ maxNesting then some d else none := by
  have hlen : ([] : List Frame).length ≤ maxNesting := Nat.zero_le _
  have htake := takeAll_tokens d hlen []
  rw [List.append_nil, List.length_nil, Nat.zero_add] at htake
  rw [ofTokens?, ← Draft.takeAll, Draft.start, htake]
  split <;> rfl

/-! ### Numbers are read from their digits -/

namespace Numeral

theorem digits_digitChar {d : Nat} (h : d < 10) (rest : List Char) :
    digits (d.digitChar :: rest) = (d :: (digits rest).1, (digits rest).2) := by
  have hd : Text.digit? 10 d.digitChar = some d := by
    revert d
    decide
  rw [digits, hd]

theorem value_concat (ds : List Nat) (d : Nat) : value (ds ++ [d]) = 10 * value ds + d := by
  rw [value, value, List.foldl_append]
  rfl

/-- The decimal digits of a number are read as digits that denote it, the first of which is zero
only if there is no other. -/
theorem digits_toDigits (n : Nat) : ∃ ds,
    (∀ rest, digits (Nat.toDigits 10 n ++ rest) = (ds ++ (digits rest).1, (digits rest).2)) ∧
      value ds = n ∧ (∃ d more, ds = d :: more ∧ (d = 0 → n = 0 ∧ more = [])) := by
  induction n using Nat.strongRecOn with
  | ind n ih =>
    rw [Nat.toDigits_eq_if (by decide)]
    split
    next hlt =>
      refine ⟨[n], fun rest => digits_digitChar hlt rest, ?_, n, [], rfl, ?_⟩
      · rw [value, List.foldl_cons, List.foldl_nil, Nat.mul_zero, Nat.zero_add]
      · exact fun h => ⟨h, rfl⟩
    next hge =>
      obtain ⟨ds, hds, hvalue, d, more, rfl, hzero⟩ := ih (n / 10) (by omega)
      refine ⟨d :: more ++ [n % 10], ?_, ?_, d, more ++ [n % 10], rfl, ?_⟩
      · intro rest
        have hlast := digits_digitChar (Nat.mod_lt n (by decide : 0 < 10)) rest
        rw [List.append_assoc, List.singleton_append, hds, hlast, List.append_assoc,
          List.singleton_append]
      · rw [value_concat, hvalue]
        omega
      · intro h
        have := (hzero h).1
        omega

theorem toDigits_eq_cons (n : Nat) : ∃ d < 10, ∃ more, Nat.toDigits 10 n = d.digitChar :: more := by
  induction n using Nat.strongRecOn with
  | ind n ih =>
    rw [Nat.toDigits_eq_if (by decide)]
    split
    next hlt => exact ⟨n, hlt, [], rfl⟩
    next hge =>
      obtain ⟨d, hd, more, hmore⟩ := ih (n / 10) (by omega)
      exact ⟨d, hd, more ++ [(n % 10).digitChar], by rw [hmore, List.cons_append]⟩

/-- Decimal digits before a blank are a number without point and exponent. -/
theorem readUnsigned_toDigits (negative : Bool) (n : Nat) (rest : List Char) :
    ∃ ds, value ds = n ∧ readUnsigned negative (Nat.toDigits 10 n ++ ' ' :: rest)
      = some (⟨negative, ds, [], 0, true⟩, ' ' :: rest) := by
  obtain ⟨ds, hds, hvalue, d, more, rfl, hzero⟩ := digits_toDigits n
  have hblank : digits (' ' :: rest) = ([], ' ' :: rest) := rfl
  have hwhole : readWhole (Nat.toDigits 10 n ++ ' ' :: rest) = some (d :: more, ' ' :: rest) := by
    rw [readWhole, hds, hblank, List.append_nil]
    split
    · rename_i heq
      cases heq
    · rename_i heq
      obtain ⟨rfl, rfl⟩ := List.cons.inj (Prod.mk.inj heq).1
      exact absurd (hzero rfl).2 (List.cons_ne_nil _ _)
    · rfl
  refine ⟨d :: more, hvalue, ?_⟩
  rw [readUnsigned, hwhole]
  rfl

end Numeral

/-! ### Texts are read from their characters -/

namespace Quoted

/-- A character as it stands in a text. -/
def spelled (c : Char) : List Char :=
  if c = '"' ∨ c = '\\' then ['\\', c]
  else if c < ' ' then
    ['\\', 'u', '0', '0', (c.toNat / 16).digitChar, (c.toNat % 16).digitChar]
  else [c]

theorem escaped_control {c : Char} (h : c < ' ') (rest : List Char) :
    escaped ('u' :: '0' :: '0' :: (c.toNat / 16).digitChar :: (c.toNat % 16).digitChar :: rest)
      = some (c, rest) := by
  have hc : c.toNat < 32 := h
  have hdigit : ∀ d < 16, Text.digit? 16 d.digitChar = some d := by decide
  have hunit : unit ('0' :: '0' :: (c.toNat / 16).digitChar :: (c.toNat % 16).digitChar :: rest)
      = some (c.toNat, rest) := by
    have hzero : Text.digit? 16 '0' = some 0 := rfl
    simp only [unit, hzero, hdigit (c.toNat / 16) (by omega), hdigit (c.toNat % 16) (by omega),
      Option.bind_eq_bind, Option.bind_some, Option.pure_def, Option.some.injEq, Prod.mk.injEq,
      and_true]
    omega
  have hhigh : isHigh c.toNat = false := by
    rw [isHigh, decide_eq_false (by omega), Bool.false_and]
  have hlow : isLow c.toNat = false := by
    rw [isLow, decide_eq_false (by omega), Bool.false_and]
  rw [escaped, units, hunit]
  simp [hhigh, hlow]

/-- A character is read as it is spelled. -/
theorem readFrom_spelled (done : List Char) (c : Char) (rest : List Char) :
    readFrom done (spelled c ++ rest) = readFrom (c :: done) rest := by
  unfold spelled
  split_ifs with hescape hcontrol
  · obtain rfl | rfl := hescape
    · rw [List.cons_append, readFrom]
      rfl
    · rw [List.cons_append, readFrom]
      rfl
  · rw [List.cons_append, readFrom]
    simp only [List.cons_append, List.nil_append]
    split
    · rename_i hnone
      rw [escaped_control hcontrol] at hnone
      cases hnone
    · rename_i hsome
      rw [escaped_control hcontrol] at hsome
      cases hsome
      rfl
  · obtain ⟨hquote, hbackslash⟩ := not_or.mp hescape
    rw [List.cons_append, List.nil_append, readFrom]
    · rw [if_neg hcontrol]
    · exact hquote
    · exact hbackslash

theorem read_spelled (value : String) (rest : List Char) :
    read (value.toList.flatMap spelled ++ '"' :: rest) = some (value, rest) := by
  have hfrom : ∀ (chars done : List Char), readFrom done (chars.flatMap spelled ++ '"' :: rest)
      = some (String.ofList (done.reverse ++ chars), rest) := by
    intro chars
    induction chars with
    | nil =>
      intro done
      rw [List.flatMap_nil, List.nil_append, readFrom, List.append_nil]
    | cons c chars ih =>
      intro done
      rw [List.flatMap_cons, List.append_assoc, readFrom_spelled, ih, List.reverse_cons,
        List.append_assoc, List.singleton_append]
  rw [read, hfrom, List.reverse_nil, List.nil_append, String.ofList_toList]

end Quoted

/-! ### Tokens are read from their texts -/

namespace Token

/-- A token as it stands in a document. -/
def spelled : Token → List Char
  | .beginArray => ['[']
  | .endArray => [']']
  | .beginObject => ['\x7b']
  | .endObject => ['\x7d']
  | .comma => [',']
  | .colon => [':']
  | .text value => '"' :: (value.toList.flatMap Quoted.spelled ++ ['"'])
  | .plain .null => ['n', 'u', 'l', 'l']
  | .plain (.bool true) => ['t', 'r', 'u', 'e']
  | .plain (.bool false) => ['f', 'a', 'l', 's', 'e']
  | .plain (.integer n) =>
    if n < 0 then '-' :: Nat.toDigits 10 n.natAbs else Nat.toDigits 10 n.natAbs
  | .plain _ => ['0', '.', '0']

/-- A token that can be read: a number is one of 64 bits. -/
def Readable : Token → Prop
  | .plain (.integer n) => -2 ^ 63 ≤ n ∧ n < 2 ^ 64
  | .plain (.text _) | .plain (.array _) | .plain (.object _) => False
  | _ => True

theorem read_digitChar {d : Nat} (h : d < 10) (rest : List Char) :
    read (d.digitChar :: rest) = readNumber (d.digitChar :: rest)
      ∧ Numeral.read (d.digitChar :: rest) = Numeral.readUnsigned false (d.digitChar :: rest)
      ∧ isBlank d.digitChar = false := by
  interval_cases d <;> exact ⟨rfl, rfl, rfl⟩

theorem readNumber_of_read {input rest : List Char} {numeral : Numeral} {value : Document}
    (hread : Numeral.read input = some (numeral, rest))
    (hvalue : numeral.toDocument? = some value) :
    readNumber input = some (.plain value, rest) := by
  rw [readNumber, hread]
  simp [hvalue]

theorem read_natural {n : Nat} (h : n < 2 ^ 64) (rest : List Char) :
    readNumber (Nat.toDigits 10 n ++ ' ' :: rest) = some (.plain (.integer n), ' ' :: rest) := by
  obtain ⟨ds, hvalue, hread⟩ := Numeral.readUnsigned_toDigits false n rest
  obtain ⟨d, hd, more, hdigits⟩ := Numeral.toDigits_eq_cons n
  rw [hdigits, List.cons_append] at hread ⊢
  rw [← (read_digitChar hd _).2.1] at hread
  refine readNumber_of_read hread ?_
  rw [Numeral.toDocument?, hvalue]
  exact if_pos ⟨rfl, rfl, h⟩

theorem read_negative {n : Nat} (hpos : 0 < n) (h : n ≤ 2 ^ 63) (rest : List Char) :
    readNumber ('-' :: Nat.toDigits 10 n ++ ' ' :: rest)
      = some (.plain (.integer (-n)), ' ' :: rest) := by
  obtain ⟨ds, hvalue, hread⟩ := Numeral.readUnsigned_toDigits true n rest
  have hminus : Numeral.read ('-' :: Nat.toDigits 10 n ++ ' ' :: rest)
      = some (⟨true, ds, [], 0, true⟩, ' ' :: rest) := hread
  refine readNumber_of_read hminus ?_
  rw [Numeral.toDocument?, hvalue, if_neg (by simp)]
  exact if_pos ⟨rfl, rfl, hpos, h⟩

/-- A token is read as it is spelled. -/
theorem read_spelled : ∀ {t : Token}, t.Readable → ∀ rest : List Char,
    ∃ c more, t.spelled ++ ' ' :: rest = c :: more ∧ isBlank c = false
      ∧ read (c :: more) = some (t, ' ' :: rest)
  | .beginArray, _, _ | .endArray, _, _ | .beginObject, _, _ | .endObject, _, _ | .comma, _, _
  | .colon, _, _ | .plain .null, _, _ | .plain (.bool true), _, _ | .plain (.bool false), _, _
  | .plain .real, _, _ => ⟨_, _, rfl, rfl, rfl⟩
  | .text value, _, rest => by
    refine ⟨'"', value.toList.flatMap Quoted.spelled ++ '"' :: ' ' :: rest, ?_, rfl, ?_⟩
    · rw [spelled, List.cons_append, List.append_assoc]
      rfl
    · have h := Quoted.read_spelled value (' ' :: rest)
      rw [read, readText, h]
      rfl
  | .plain (.integer n), h, rest => by
    obtain ⟨hmin, hmax⟩ := h
    rw [spelled]
    split_ifs with hneg
    · refine ⟨'-', Nat.toDigits 10 n.natAbs ++ ' ' :: rest, rfl, rfl, ?_⟩
      have hread := read_negative (n := n.natAbs) (by omega) (by omega) rest
      rwa [show -(n.natAbs : Int) = n by omega] at hread
    · have hread := read_natural (n := n.natAbs) (by omega) rest
      obtain ⟨d, hd, more, hdigits⟩ := Numeral.toDigits_eq_cons n.natAbs
      obtain ⟨hnumber, -, hblank⟩ := read_digitChar hd (more ++ ' ' :: rest)
      rw [hdigits, List.cons_append] at hread ⊢
      rw [← hnumber, show (n.natAbs : Int) = n by omega] at hread
      exact ⟨_, _, rfl, hblank, hread⟩

/-- Tokens are read as they are spelled, with a blank after each. -/
theorem readAll_spelled {tokens : List Token} (h : ∀ t ∈ tokens, t.Readable) :
    readAll (tokens.flatMap fun t => t.spelled ++ [' ']) = some tokens := by
  have hfrom : ∀ done : List Token,
      readAllFrom done (tokens.flatMap fun t => t.spelled ++ [' '])
        = some (done.reverse ++ tokens) := by
    induction tokens with
    | nil =>
      intro done
      rw [List.flatMap_nil, readAllFrom, List.append_nil]
    | cons t tokens ih =>
      intro done
      obtain ⟨ht, h⟩ := List.forall_mem_cons.mp h
      obtain ⟨c, more, htext, hblank, hread⟩ :=
        read_spelled ht (tokens.flatMap fun t => t.spelled ++ [' '])
      rw [List.flatMap_cons, List.append_assoc, List.singleton_append, htext, readAllFrom,
        if_neg (Bool.not_eq_true _ ▸ hblank)]
      split
      · rename_i hnone
        rw [hread] at hnone
        cases hnone
      · rename_i hsome
        rw [hread] at hsome
        cases hsome
        rw [readAllFrom, if_pos (by decide : isBlank ' ' = true), ih h, List.reverse_cons,
          List.append_assoc, List.singleton_append]
  rw [readAll, hfrom, List.reverse_nil, List.nil_append]

end Token

/-! ### Documents are read from their texts -/

mutual

/-- Every integer in a document is one of 64 bits, signed or not. -/
def IntegersFit : Document → Prop
  | .integer n => -2 ^ 63 ≤ n ∧ n < 2 ^ 64
  | .array items => IntegersFitInItems items
  | .object fields => IntegersFitInFields fields
  | _ => True

/-- Every integer in several documents is one of 64 bits. -/
def IntegersFitInItems : List Document → Prop
  | [] => True
  | d :: rest => d.IntegersFit ∧ IntegersFitInItems rest

/-- Every integer in the values of several fields is one of 64 bits. -/
def IntegersFitInFields : List (String × Document) → Prop
  | [] => True
  | (_, d) :: rest => d.IntegersFit ∧ IntegersFitInFields rest

end

mutual

theorem readable_tokens : ∀ d : Document, d.IntegersFit → ∀ t ∈ d.tokens, t.Readable
  | .null, _ | .bool _, _ | .real, _ | .text _, _ => by
    rw [tokens, List.forall_mem_singleton]
    trivial
  | .integer n, h => by
    rw [tokens, List.forall_mem_singleton]
    exact h
  | .array items, h => by
    rw [tokens, List.forall_mem_cons]
    exact ⟨trivial, readable_itemTokens items h⟩
  | .object fields, h => by
    rw [tokens, List.forall_mem_cons]
    exact ⟨trivial, readable_fieldTokens fields h⟩

theorem readable_itemTokens : ∀ items : List Document, IntegersFitInItems items →
    ∀ t ∈ itemTokens items, t.Readable
  | [], _ => by
    rw [itemTokens, List.forall_mem_singleton]
    trivial
  | d :: items, h => by
    rw [itemTokens, List.forall_mem_append]
    exact ⟨readable_tokens d h.1, readable_moreItemTokens items h.2⟩

theorem readable_moreItemTokens : ∀ items : List Document, IntegersFitInItems items →
    ∀ t ∈ moreItemTokens items, t.Readable
  | [], _ => by
    rw [moreItemTokens, List.forall_mem_singleton]
    trivial
  | d :: items, h => by
    rw [moreItemTokens, List.forall_mem_cons, List.forall_mem_append]
    exact ⟨trivial, readable_tokens d h.1, readable_moreItemTokens items h.2⟩

theorem readable_fieldTokens : ∀ fields : List (String × Document), IntegersFitInFields fields →
    ∀ t ∈ fieldTokens fields, t.Readable
  | [], _ => by
    rw [fieldTokens, List.forall_mem_singleton]
    trivial
  | (key, d) :: fields, h => by
    simp only [fieldTokens, List.forall_mem_cons, List.forall_mem_append]
    exact ⟨trivial, trivial, readable_tokens d h.1, readable_moreFieldTokens fields h.2⟩

theorem readable_moreFieldTokens : ∀ fields : List (String × Document),
    IntegersFitInFields fields → ∀ t ∈ moreFieldTokens fields, t.Readable
  | [], _ => by
    rw [moreFieldTokens, List.forall_mem_singleton]
    trivial
  | (key, d) :: fields, h => by
    simp only [moreFieldTokens, List.forall_mem_cons, List.forall_mem_append]
    exact ⟨trivial, trivial, trivial, readable_tokens d h.1, readable_moreFieldTokens fields h.2⟩

end

/-- A text spells a document: whatever stands between its tokens, and however they are written,
they are those of the document. -/
def Spells (input : String) (d : Document) : Prop := Token.readAll input.toList = some d.tokens

/-- Every document whose integers have 64 bits is spelled by a text. -/
theorem exists_spells {d : Document} (h : d.IntegersFit) : ∃ input, Spells input d := by
  refine ⟨String.ofList (d.tokens.flatMap fun t => t.spelled ++ [' ']), ?_⟩
  rw [Spells, String.toList_ofList]
  exact Token.readAll_spelled (readable_tokens d h)

/-- Whatever spells a document is read as the document, unless it is nested too deep. -/
theorem ofText?_of_spells {input : String} {d : Document} (h : Spells input d) :
    ofText? input = if d.depth ≤ maxNesting then some d else none := by
  rw [ofText?, h, Option.bind_some, ofTokens?_tokens]

end Gic.Document
