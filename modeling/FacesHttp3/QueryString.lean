import FacesHttp3.Request

/-! # Query strings written from pairs

The path ends at the first `?`, a part of the query string at every `&`, a parameter
at the first `=` of its part. So a value may hold `?` and `=`, and a part with no `=`
says nothing. -/

namespace FacesHttp3.QueryString
open FacesHttp3.Lib FacesHttp3.Request

/-- A parameter with a value, both such that they can be written. -/
structure Pair where
  param : String
  value : String
  param_whole : '&' ∉ param.toList ∧ '=' ∉ param.toList
  value_whole : '&' ∉ value.toList

/-- What can stand between two `&`. -/
inductive Segment
  | pair (pair : Pair)
  | blank (text : String) (noValue : '=' ∉ text.toList)

def Pair.write (pair : Pair) : String := pair.param ++ "=" ++ pair.value

def Segment.write : Segment → String
  | .pair p => p.write
  | .blank text _ => text

def Segment.pair? : Segment → Option Pair
  | .pair p => some p
  | .blank _ _ => none

def write (segments : List Segment) : String := "&".intercalate (segments.map Segment.write)

def pairs (segments : List Segment) : List Pair := segments.filterMap Segment.pair?

/-- The value of the last pair with the parameter. -/
def lastValue (pairs : List Pair) (name : String) : Option String :=
  (pairs.reverse.find? fun pair => decide (pair.param = name)).map (·.value)

theorem lastValue_of_last {before after : List Pair} {pair : Pair}
    (h : ∀ later ∈ after, later.param ≠ pair.param) :
    lastValue (before ++ pair :: after) pair.param = some pair.value := by
  have hlater : (after.reverse.find? fun later => decide (later.param = pair.param)) = none := by
    rw [List.find?_eq_none]
    intro later hmem
    simpa using h later (List.mem_reverse.mp hmem)
  simp [lastValue, List.find?_append, hlater]

theorem lastValue_of_absent {all : List Pair} {name : String} (h : ∀ pair ∈ all, pair.param ≠ name) :
    lastValue all name = none := by
  rw [lastValue, Option.map_eq_none_iff, List.find?_eq_none]
  intro pair hmem
  simpa using h pair (List.mem_reverse.mp hmem)

/-! ## Reading -/

def readPart (part : List Char) : Option (String × String) :=
  (SplitOnce.splitOnce '=' part).map fun parts => (String.ofList parts.1, String.ofList parts.2)

/-- Every pair of a query string, from left to right. -/
def readPairs (query : String) : List (String × String) :=
  (query.toList.splitOn '&').filterMap readPart

theorem buildQueryString_eq (query : String) :
    ReqArgs.buildQueryString query = PMap.empty.insertAll (readPairs query) := by
  unfold ReqArgs.buildQueryString PMap.insertAll readPairs
  rw [List.foldl_filterMap]
  congr 1
  funext args part
  unfold readPart
  cases SplitOnce.splitOnce '=' part <;> rfl

theorem readPart_pair (pair : Pair) : readPart pair.write.toList = some (pair.param, pair.value) := by
  have hlist : pair.write.toList = pair.param.toList ++ '=' :: pair.value.toList := by
    simp [Pair.write, String.toList_append]
  rw [readPart, hlist, SplitOnce.splitOnce_append _ pair.param_whole.2]
  simp only [Option.map_some, String.ofList_toList]

theorem readPart_of_not_mem {part : List Char} (h : '=' ∉ part) : readPart part = none := by
  rw [readPart, (SplitOnce.splitOnce_eq_none_iff '=' part).mpr h, Option.map_none]

/-- A pair is one part of the query string; a blank is some parts that say nothing. -/
theorem readPairs_segment (segment : Segment) :
    readPairs segment.write = segment.pair?.toList.map fun pair => (pair.param, pair.value) := by
  cases segment with
  | pair pair =>
    have hwhole : '&' ∉ pair.write.toList := by
      have hparam := pair.param_whole.1
      have hvalue := pair.value_whole
      simp [Pair.write, String.toList_append, hparam, hvalue]
    show (pair.write.toList.splitOn '&').filterMap readPart = [(pair.param, pair.value)]
    rw [List.splitOn_eq_singleton hwhole, List.filterMap_cons_some (readPart_pair pair)]
    rfl
  | blank text noValue =>
    show (text.toList.splitOn '&').filterMap readPart = []
    rw [List.filterMap_eq_nil_iff]
    intro part hpart
    exact readPart_of_not_mem fun hmem => noValue (SplitOnce.mem_of_mem_splitOn hpart hmem)

theorem toList_write (segments : List Segment) : (write segments).toList =
    ['&'].intercalate (segments.map fun segment => segment.write.toList) := by
  simp [write, String.toList_intercalate, Function.comp_def]

theorem readPairs_write (segments : List Segment) :
    readPairs (write segments) = (pairs segments).map fun pair => (pair.param, pair.value) := by
  cases segments with
  | nil => rfl
  | cons segment segments =>
    rw [readPairs, toList_write, SplitOnce.splitOn_intercalate_flatMap '&' (by simp)]
    generalize segment :: segments = all
    induction all with
    | nil => rfl
    | cons segment all ih =>
      have hone := readPairs_segment segment
      rw [readPairs] at hone
      rw [List.map_cons, List.flatMap_cons, List.filterMap_append, hone, ih, pairs, pairs]
      cases segment <;> rfl

theorem pairs_map_pair (all : List Pair) : pairs (all.map .pair) = all := by
  induction all with
  | nil => rfl
  | cons pair all ih => exact congrArg (pair :: ·) ih

theorem buildQueryString_write (segments : List Segment) :
    ReqArgs.buildQueryString (write segments) =
      PMap.empty.insertAll ((pairs segments).map fun pair => (pair.param, pair.value)) := by
  rw [buildQueryString_eq, readPairs_write]

theorem get_buildQueryString (segments : List Segment) (name : String) :
    (ReqArgs.buildQueryString (write segments)).get name = lastValue (pairs segments) name := by
  rw [buildQueryString_write, ReqArgs.get, PMap.insertAll_apply, ← List.map_reverse, List.find?_map]
  simp [lastValue, Function.comp_def]

/-! ## Every query string is written from segments -/

theorem exists_segment {part : List Char} (hpart : '&' ∉ part) :
    ∃ segment : Segment, segment.write.toList = part := by
  cases hsplit : SplitOnce.splitOnce '=' part with
  | none =>
    have hnone := (SplitOnce.splitOnce_eq_none_iff '=' part).mp hsplit
    exact ⟨.blank (String.ofList part) (by simpa using hnone), String.toList_ofList⟩
  | some parts =>
    obtain ⟨param, value⟩ := parts
    obtain ⟨rfl, hparam⟩ := SplitOnce.splitOnce_eq_some_iff.mp hsplit
    rw [List.mem_append, List.mem_cons, not_or, not_or] at hpart
    obtain ⟨hparam', -, hvalue⟩ := hpart
    refine ⟨.pair ⟨String.ofList param, String.ofList value, ?_, ?_⟩, ?_⟩
    · simpa using And.intro hparam' hparam
    · simpa using hvalue
    · simp [Segment.write, Pair.write, String.toList_append]

/-- So nothing that is read falls outside of what is said about written query strings. -/
theorem exists_write (query : String) : ∃ segments, write segments = query := by
  have hparts : ∀ parts : List (List Char), (∀ part ∈ parts, '&' ∉ part) →
      ∃ segments : List Segment, segments.map (fun segment => segment.write.toList) = parts := by
    intro parts hwhole
    induction parts with
    | nil => exact ⟨[], rfl⟩
    | cons part parts ih =>
      obtain ⟨segment, hsegment⟩ := exists_segment (hwhole part List.mem_cons_self)
      obtain ⟨segments, hsegments⟩ := ih fun other h => hwhole other (List.mem_cons_of_mem _ h)
      exact ⟨segment :: segments, by rw [List.map_cons, hsegment, hsegments]⟩
  obtain ⟨segments, hsegments⟩ := hparts (query.toList.splitOn '&')
    fun part hpart => SplitOnce.not_mem_of_mem_splitOn hpart
  refine ⟨segments, ?_⟩
  rw [← String.toList_inj, toList_write, hsegments, List.intercalate_splitOn]

/-! ## The round trip -/

/-- A path with no `?` comes back as it is. With a query string written from pairs after
it, it comes back with arguments that know the last value of every parameter and no
other parameter; parts with no `=`, wherever they stand, make no difference. -/
theorem parseArgs_write (path : String) (hpath : '?' ∉ path.toList) :
    ReqArgs.parseArgs path = (path, none) ∧
    ∀ segments : List Segment, ∃ args : ReqArgs,
      ReqArgs.parseArgs (path ++ "?" ++ write segments) = (path, some args) ∧
      ReqArgs.parseArgs (path ++ "?" ++ write ((pairs segments).map .pair)) = (path, some args) ∧
      (∀ before pair after, pairs segments = before ++ pair :: after →
        (∀ later ∈ after, later.param ≠ pair.param) → args.get pair.param = some pair.value) ∧
      (∀ name, (∀ pair ∈ pairs segments, pair.param ≠ name) → args.get name = none) := by
  refine ⟨parseArgs_of_not_hasQuery hpath, ?_⟩
  intro segments
  refine ⟨ReqArgs.buildQueryString (write segments), parseArgs_append _ hpath, ?_, ?_, ?_⟩
  · rw [parseArgs_append _ hpath, buildQueryString_write, buildQueryString_write segments,
      pairs_map_pair]
  · intro before pair after hpairs hlast
    rw [get_buildQueryString, hpairs]
    exact lastValue_of_last hlast
  · intro name habsent
    rw [get_buildQueryString]
    exact lastValue_of_absent habsent

theorem parseArgs_write_role : ∃ args : ReqArgs,
    ReqArgs.parseArgs "/path?name=charles&role=a=b?&&name=carl" = ("/path", some args) ∧
    args.get "role" = some "a=b?" ∧ args.get "name" = some "carl" ∧ args.get "age" = none := by
  let name : Pair := ⟨"name", "charles", by decide, by decide⟩
  let role : Pair := ⟨"role", "a=b?", by decide, by decide⟩
  let again : Pair := ⟨"name", "carl", by decide, by decide⟩
  obtain ⟨args, hparse, -, hlast, habsent⟩ := (parseArgs_write "/path" (by decide)).2
    [.pair name, .pair role, .blank "" (by decide), .pair again]
  refine ⟨args, hparse, ?_, ?_, ?_⟩
  · exact hlast [name] role [again] rfl (by decide)
  · exact hlast [name, role] again [] rfl (by decide)
  · exact habsent "age" (by decide)

end FacesHttp3.QueryString
