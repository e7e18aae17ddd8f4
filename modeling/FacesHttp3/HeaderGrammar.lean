import Mathlib.Data.List.Induction
import Mathlib.Data.List.Perm.Basic
import Mathlib.Data.Nat.Digits.Defs
import FacesHttp3.Request

/-! # The grammar of a header section

The scan goes through a section once and gives up at the first malformed field.
What it reads is described here by the values that stand under each name, so
neither the order nor any other header matters. -/

namespace FacesHttp3.HeaderGrammar
open FacesHttp3.Request

/-! ## One field -/

/-- The values of all headers of a name, in their order. -/
def valuesOf (name : Bytes) (headers : List Header) : List Bytes :=
  (headers.filter fun header => header.name == name).map Header.value

theorem valuesOf_snoc (name : Bytes) (headers : List Header) (header : Header) :
    valuesOf name (headers ++ [header]) =
      if header.name = name then valuesOf name headers ++ [header.value]
      else valuesOf name headers := by
  by_cases h : header.name = name <;> simp [valuesOf, List.filter_append, h]

/-- A field that may occur once: `slot` is what `read` makes of its only value. -/
inductive Slot {α : Type} (read : Bytes → Option α) : List Bytes → Option α → Prop
  | empty : Slot read [] none
  | filled {value : Bytes} {a : α} (h : read value = some a) : Slot read [value] (some a)

/-- A header passes a slot: the first one of its name fills it, a second one or one
that cannot be read ends the scan. -/
def Advances {α : Type} (name : Bytes) (read : Bytes → Option α) (header : Header)
    (slot slot' : Option α) : Prop :=
  if header.name = name then slot = none ∧ ∃ a, read header.value = some a ∧ slot' = some a
  else slot' = slot

theorem slot_snoc {α : Type} {name : Bytes} {read : Bytes → Option α} {headers : List Header}
    {header : Header} {slot' : Option α} :
    Slot read (valuesOf name (headers ++ [header])) slot' ↔
      ∃ slot, Slot read (valuesOf name headers) slot ∧ Advances name read header slot slot' := by
  rw [valuesOf_snoc]
  unfold Advances
  split
  · constructor
    · intro h
      cases hvalues : valuesOf name headers with
      | nil =>
        rw [hvalues] at h
        cases h with
        | filled hread => exact ⟨none, .empty, rfl, _, hread, rfl⟩
      | cons first rest =>
        -- two values leave no slot
        rw [hvalues] at h
        generalize hall : first :: rest ++ [header.value] = all at h
        cases h <;> simp at hall
    · intro h
      obtain ⟨slot, hslot, rfl, a, hread, rfl⟩ := h
      generalize valuesOf name headers = values at hslot
      cases hslot
      exact .filled hread
  · constructor
    · intro h
      exact ⟨slot', h, rfl⟩
    · intro h
      obtain ⟨slot, hslot, rfl⟩ := h
      exact hslot

/-! ## The scan -/

def readMethod (value : Bytes) : Option Bytes :=
  if (H3Method.parse value).isNone then none else some value

def readPath (value : Bytes) : Option String :=
  (fromUtf8 value).bind fun path =>
    if value.isEmpty || value.any (fun b => b ≤ 32 || b == 127) then none else some path

def readContentLength (value : Bytes) : Option Nat :=
  if value.isEmpty || !value.all isAsciiDigit then none else parseUsize value

/-- A header passes all three slots. -/
theorem readHeader_eq_some_iff {seen seen' : Routing} {header : Header} :
    readHeader seen header = some seen' ↔
      Advances (ascii ":method") readMethod header seen.method seen'.method ∧
      Advances (ascii ":path") readPath header seen.path seen'.path ∧
      Advances (ascii "content-length") readContentLength header seen.contentLength
        seen'.contentLength := by
  obtain ⟨method, path, contentLength⟩ := seen
  obtain ⟨method', path', contentLength'⟩ := seen'
  unfold Advances readHeader
  by_cases hmethod : header.name = ascii ":method"
  · have hpath : header.name ≠ ascii ":path" := by rw [hmethod]; decide
    have hlength : header.name ≠ ascii "content-length" := by rw [hmethod]; decide
    simp only [if_pos hmethod, if_neg hpath, if_neg hlength, readMethod]
    cases method <;> cases H3Method.parse header.value <;> simp [eq_comm]
  by_cases hpath : header.name = ascii ":path"
  · have hlength : header.name ≠ ascii "content-length" := by rw [hpath]; decide
    simp only [if_neg hmethod, if_pos hpath, if_neg hlength, readPath]
    cases path with
    | some path => simp
    | none =>
      cases fromUtf8 header.value with
      | none => simp
      | some value =>
        simp only [Option.isSome_none, Bool.false_eq_true, if_false, Option.bind_eq_bind,
          Option.bind_some]
        split <;> simp [eq_comm, and_left_comm, and_comm]
  by_cases hlength : header.name = ascii "content-length"
  · simp only [if_neg hmethod, if_neg hpath, if_pos hlength, readContentLength]
    cases contentLength with
    | some length => simp
    | none =>
      simp only [Option.isSome_none, Bool.false_or]
      split
      · simp
      · cases parseUsize header.value <;> simp [eq_comm, and_left_comm]
  · simp [hmethod, hpath, hlength, eq_comm]

/-- The accumulators after the headers. -/
structure Seen (headers : List Header) (seen : Routing) : Prop where
  method : Slot readMethod (valuesOf (ascii ":method") headers) seen.method
  path : Slot readPath (valuesOf (ascii ":path") headers) seen.path
  contentLength :
    Slot readContentLength (valuesOf (ascii "content-length") headers) seen.contentLength

theorem seen_snoc {headers : List Header} {header : Header} {seen' : Routing} :
    Seen (headers ++ [header]) seen' ↔
      ∃ seen, Seen headers seen ∧ readHeader seen header = some seen' := by
  constructor
  · intro ⟨hm, hp, hl⟩
    obtain ⟨method, hm, hmethod⟩ := slot_snoc.mp hm
    obtain ⟨path, hp, hpath⟩ := slot_snoc.mp hp
    obtain ⟨contentLength, hl, hlength⟩ := slot_snoc.mp hl
    exact ⟨⟨method, path, contentLength⟩, ⟨hm, hp, hl⟩,
      readHeader_eq_some_iff.mpr ⟨hmethod, hpath, hlength⟩⟩
  · intro ⟨seen, ⟨hm, hp, hl⟩, hread⟩
    obtain ⟨hmethod, hpath, hlength⟩ := readHeader_eq_some_iff.mp hread
    exact ⟨slot_snoc.mpr ⟨_, hm, hmethod⟩, slot_snoc.mpr ⟨_, hp, hpath⟩,
      slot_snoc.mpr ⟨_, hl, hlength⟩⟩

theorem foldlM_readHeader_iff {headers : List Header} {seen : Routing} :
    headers.foldlM readHeader {} = some seen ↔ Seen headers seen := by
  induction headers using List.reverseRecOn generalizing seen with
  | nil =>
    constructor
    · intro h
      cases h
      exact ⟨.empty, .empty, .empty⟩
    · intro ⟨hm, hp, hl⟩
      obtain ⟨method, path, contentLength⟩ := seen
      cases hm
      cases hp
      cases hl
      rfl
  | append_singleton headers header ih =>
    rw [List.foldlM_append, seen_snoc]
    constructor
    · intro h
      obtain ⟨mid, hmid, h⟩ := Option.bind_eq_some_iff.mp h
      obtain ⟨last, hlast, h⟩ := Option.bind_eq_some_iff.mp h
      cases h
      exact ⟨mid, ih.mp hmid, hlast⟩
    · intro ⟨mid, hmid, hread⟩
      exact Option.bind_eq_some_iff.mpr ⟨mid, ih.mpr hmid, Option.bind_eq_some_iff.mpr ⟨seen, hread, rfl⟩⟩

/-! ## Methods -/

/-- Lossy decoding keeps valid UTF-8 and shows a replacement character in anything
else. -/
structure FromUtf8Lossy where
  decode : Bytes → String
  valid : ∀ {bytes : Bytes} {s : String}, fromUtf8 bytes = some s → decode bytes = s
  invalid : ∀ {bytes : Bytes}, fromUtf8 bytes = none → Char.ofNat 0xfffd ∈ (decode bytes).toList

namespace FromUtf8Lossy

/-- The coarsest of them: one replacement character stands for all of an invalid input. -/
def coarse : FromUtf8Lossy where
  decode bytes := (fromUtf8 bytes).getD (String.singleton (Char.ofNat 0xfffd))
  valid h := by simp [h]
  invalid h := by simp [h]

/-- `H3Method::parse` as it is written, on the decoded name. -/
def parse (lossy : FromUtf8Lossy) (input : Bytes) : Option H3Method :=
  if lossy.decode input = "GET" then some .GET
  else if lossy.decode input = "POST" then some .POST
  else if lossy.decode input = "PUT" then some .PUT
  else if lossy.decode input = "DELETE" then some .DELETE
  else none

end FromUtf8Lossy

theorem H3Method.parse_isSome_iff {input : Bytes} : (H3Method.parse input).isSome = true ↔
    input ∈ [ascii "GET", ascii "POST", ascii "PUT", ascii "DELETE"] := by
  unfold H3Method.parse
  grind

/-! ## The grammar -/

/-- The number that ASCII digits denote, the first one most significant. -/
def decimal (digits : Bytes) : Nat :=
  Nat.ofDigits 10 (digits.reverse.map fun b => b.toNat - 48)

theorem foldl_eq_decimal (digits : Bytes) :
    digits.foldl (fun n b => 10 * n + (b.toNat - 48)) 0 = decimal digits := by
  rw [decimal, Nat.ofDigits_eq_foldr, List.foldr_map, List.foldr_reverse]
  congr
  funext n b
  rw [Nat.cast_id]
  omega

theorem parseUsize_eq_some_iff {digits : Bytes} {n : Nat} :
    parseUsize digits = some n ↔ decimal digits = n ∧ n < 2 ^ 64 := by
  unfold parseUsize
  rw [foldl_eq_decimal]
  dsimp only
  split
  · rename_i hlt
    constructor
    · intro h
      cases h
      exact ⟨rfl, hlt⟩
    · intro ⟨h, _⟩
      rw [h]
  · rename_i hle
    constructor
    · intro h
      cases h
    · intro ⟨h, hlt⟩
      exact absurd (h ▸ hlt) hle

/-- A section that asks for `path` with `method` and announces `contentLength`. -/
structure Grammar (headers : List Header) (method : Bytes) (path : String)
    (contentLength : Option Nat) : Prop where
  method : valuesOf (ascii ":method") headers = [method] ∧
    method ∈ [ascii "GET", ascii "POST", ascii "PUT", ascii "DELETE"]
  path : ∃ value, valuesOf (ascii ":path") headers = [value] ∧ value ≠ [] ∧
    fromUtf8 value = some path ∧ ∀ b ∈ value, 0x20 < b ∧ b ≠ 0x7f
  contentLength : (valuesOf (ascii "content-length") headers = [] ∧ contentLength = none) ∨
    ∃ digits, valuesOf (ascii "content-length") headers = [digits] ∧ digits ≠ [] ∧
      (∀ d ∈ digits, 0x30 ≤ d ∧ d ≤ 0x39) ∧ decimal digits < 2 ^ 64 ∧
      contentLength = some (decimal digits)

theorem slot_method_iff {values : List Bytes} {method : Bytes} :
    Slot readMethod values (some method) ↔ values = [method] ∧
      method ∈ [ascii "GET", ascii "POST", ascii "PUT", ascii "DELETE"] := by
  rw [← H3Method.parse_isSome_iff]
  constructor
  · intro h
    cases h with
    | filled hread =>
      unfold readMethod at hread
      split at hread
      · cases hread
      · rename_i hsome
        cases hread
        exact ⟨rfl, Option.isSome_iff_ne_none.mpr (by simpa using hsome)⟩
  · intro ⟨hvalues, hsome⟩
    rw [hvalues]
    refine .filled ?_
    rw [readMethod, if_neg (by simpa [Option.isSome_iff_ne_none] using hsome)]

theorem slot_path_iff {values : List Bytes} {path : String} :
    Slot readPath values (some path) ↔ ∃ value, values = [value] ∧ value ≠ [] ∧
      fromUtf8 value = some path ∧ ∀ b ∈ value, 0x20 < b ∧ b ≠ 0x7f := by
  constructor
  · intro h
    cases h with
    | @filled value _ hread =>
      obtain ⟨path', hutf, hread⟩ := Option.bind_eq_some_iff.mp hread
      split at hread
      · cases hread
      · rename_i hbytes
        cases hread
        simp only [Bool.or_eq_true, List.isEmpty_iff, List.any_eq_true, decide_eq_true_eq,
          beq_iff_eq, not_or, not_exists, not_and, UInt8.not_le] at hbytes
        exact ⟨value, rfl, hbytes.1, hutf, hbytes.2⟩
  · intro ⟨value, hvalues, hne, hutf, hbytes⟩
    rw [hvalues]
    refine .filled (Option.bind_eq_some_iff.mpr ⟨path, hutf, if_neg ?_⟩)
    simp only [Bool.or_eq_true, List.isEmpty_iff, List.any_eq_true, decide_eq_true_eq,
      beq_iff_eq, not_or, not_exists, not_and, UInt8.not_le]
    exact ⟨hne, hbytes⟩

theorem slot_contentLength_iff {values : List Bytes} {contentLength : Option Nat} :
    Slot readContentLength values contentLength ↔ (values = [] ∧ contentLength = none) ∨
      ∃ digits, values = [digits] ∧ digits ≠ [] ∧ (∀ d ∈ digits, 0x30 ≤ d ∧ d ≤ 0x39) ∧
        decimal digits < 2 ^ 64 ∧ contentLength = some (decimal digits) := by
  constructor
  · intro h
    cases h with
    | empty => exact .inl ⟨rfl, rfl⟩
    | @filled digits n hread =>
      unfold readContentLength at hread
      split at hread
      · cases hread
      · rename_i hdigits
        obtain ⟨rfl, hlt⟩ := parseUsize_eq_some_iff.mp hread
        simp only [Bool.or_eq_true, List.isEmpty_iff, Bool.not_eq_true', not_or,
          Bool.not_eq_false, List.all_eq_true, isAsciiDigit, Bool.and_eq_true,
          decide_eq_true_eq] at hdigits
        exact .inr ⟨digits, rfl, hdigits.1, hdigits.2, hlt, rfl⟩
  · intro h
    obtain ⟨hvalues, hnone⟩ | ⟨digits, hvalues, hne, hdigits, hlt, hsome⟩ := h
    · rw [hvalues, hnone]
      exact .empty
    · rw [hvalues, hsome]
      refine .filled ?_
      rw [readContentLength, if_neg, parseUsize_eq_some_iff]
      · exact ⟨rfl, hlt⟩
      · simp only [Bool.or_eq_true, List.isEmpty_iff, Bool.not_eq_true', not_or,
          Bool.not_eq_false, List.all_eq_true, isAsciiDigit, Bool.and_eq_true,
          decide_eq_true_eq]
        exact ⟨hne, hdigits⟩

/-- What the scan returns is what the grammar describes. -/
theorem parseRequestHeaders_iff {headers : List Header} {method : Bytes} {path : String}
    {contentLength : Option Nat} :
    parseRequestHeaders headers = some (method, path, contentLength) ↔
      Grammar headers method path contentLength := by
  constructor
  · intro h
    simp only [parseRequestHeaders, Option.bind_eq_bind, Option.bind_eq_some_iff,
      Option.some.injEq, Prod.mk.injEq] at h
    obtain ⟨seen, hseen, m, hmethod, p, hpath, rfl, rfl, rfl⟩ := h
    obtain ⟨hm, hp, hl⟩ := foldlM_readHeader_iff.mp hseen
    rw [hmethod] at hm
    rw [hpath] at hp
    exact ⟨slot_method_iff.mp hm, slot_path_iff.mp hp, slot_contentLength_iff.mp hl⟩
  · intro ⟨hm, hp, hl⟩
    have hseen : headers.foldlM readHeader {} = some ⟨some method, some path, contentLength⟩ :=
      foldlM_readHeader_iff.mpr
        ⟨slot_method_iff.mpr hm, slot_path_iff.mpr hp, slot_contentLength_iff.mpr hl⟩
    rw [parseRequestHeaders, hseen]
    rfl

end FacesHttp3.HeaderGrammar
