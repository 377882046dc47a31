import Mathlib.Data.Char
import Ssgx.Http.Message
import Ssgx.Support.SearchTree

/-!
# Headers that are looked up

`HasHeader` and `GetHeaderValue` of `Request` and `Response`, over the `std::map` of the headers: a
search tree under `ci`, which compares names character by character in lower case. `ci` is a strict
weak order, so the tree finds what the items say (`find_tree`), and it is the tree that a run of
`SetHeader` builds step by step (`tree_set`).

`GetHeaderValue` hands its value over as a C string, and both classes pass `""` in the place of the
default that they were given. `headers_exact_iff` says for which keys and defaults the answer is
right nevertheless.
-/

set_option autoImplicit false

namespace Ssgx.Http

open Ssgx.Support

/-! ## The comparison -/

/-- `ci`. -/
def ci (s1 s2 : Str) : Bool :=
  SearchTree.lexicographicalCompare (fun c1 c2 => decide (c1.toLower < c2.toLower)) s1 s2

/-- **`ci` is a strict weak order** of all texts. -/
instance isStrictWeakOrder_ci : IsStrictWeakOrder Str fun s1 s2 => ci s1 s2 = true :=
  SearchTree.isStrictWeakOrder_lexicographicalCompare Char.toLower

/-- Names are equivalent where they differ in case only. -/
theorem equivalent_ci_iff (s1 s2 : Str) : SearchTree.Equivalent ci s1 s2 ↔ lower s1 = lower s2 :=
  SearchTree.equivalent_lexicographicalCompare_iff Char.toLower s1 s2

/-! ## The tree of the headers -/

/-- The nodes of a `std::map` of headers. -/
abbrev HeaderTree := BinaryTree (Str × Str)

/-- The tree that the insertions leave. -/
def TypeHeaders.tree (headers : TypeHeaders) : HeaderTree :=
  runFrom (SearchTree.emplace ci) .nil headers.items

namespace TypeHeaders

theorem sorted_tree (headers : TypeHeaders) :
    SearchTree.Sorted ci (SearchTree.items headers.tree) :=
  SearchTree.sorted_emplaceAll SearchTree.sorted_nil headers.items

/-- The tree has the items of the map. -/
theorem items_tree_perm (headers : TypeHeaders) :
    (SearchTree.items headers.tree).Perm headers.items := by
  refine SearchTree.emplaceAll_perm ?_
  have hdistinct : headers.items.Pairwise fun a b => lower a.1 ≠ lower b.1 :=
    List.pairwise_map.1 headers.distinct
  exact hdistinct.imp fun hne hequiv => hne ((equivalent_ci_iff _ _).1 hequiv)

/-- **The tree finds what the map has**, in whatever shape it was brought. -/
theorem find_tree (headers : TypeHeaders) {tree : HeaderTree}
    (htree : SearchTree.items tree = SearchTree.items headers.tree) (key : Str) :
    (SearchTree.find ci key tree).map Prod.snd = headers.find key := by
  rw [SearchTree.find_congr headers.sorted_tree htree]
  refine Option.ext fun value => ?_
  rw [Option.map_eq_some_iff, TypeHeaders.find, Keyed.find_eq_some_iff headers.distinct]
  refine exists_congr fun item => ?_
  rw [SearchTree.find_eq_some_iff headers.sorted_tree, headers.items_tree_perm.mem_iff,
    equivalent_ci_iff, and_assoc]

/-- **Every stored header is reached** by a search for its name. -/
theorem find_tree_of_mem (headers : TypeHeaders) {tree : HeaderTree}
    (htree : SearchTree.items tree = SearchTree.items headers.tree) {item : Str × Str}
    (hitem : item ∈ headers.items) :
    SearchTree.find ci item.1 tree = some item := by
  rw [SearchTree.find_congr headers.sorted_tree htree,
    SearchTree.find_eq_some_iff headers.sorted_tree]
  exact ⟨headers.items_tree_perm.mem_iff.2 hitem, (equivalent_ci_iff _ _).2 rfl⟩

/-- **The tree follows `SetHeader`**: behind a call it is the tree before it, with the header added
where both texts pass. -/
theorem tree_set (headers : TypeHeaders) (key val : Str) :
    (headers.set key val).tree =
      if headerPasses (key, val) = true then SearchTree.emplace ci headers.tree (key, val)
      else headers.tree := by
  simp only [TypeHeaders.tree]
  rw [TypeHeaders.items_set, Keyed.put]
  by_cases hpass : headerPasses (key, val) = true
  · rw [if_pos hpass, if_pos hpass, Keyed.emplace]
    cases hfind : Keyed.find lower key headers.items with
    | none =>
        rw [if_neg (by decide), runFrom_append]
        rfl
    | some old =>
        -- a name that is there leaves the list and the tree as they are
        obtain ⟨other, hother, hsame, -⟩ := (Keyed.find_eq_some_iff headers.distinct).1 hfind
        rw [if_pos (by rfl)]
        refine (SearchTree.emplace_of_mem headers.sorted_tree
          (headers.items_tree_perm.mem_iff.2 hother) ?_).symm
        exact (equivalent_ci_iff _ _).2 hsame
  · rw [if_neg hpass, if_neg hpass]

end TypeHeaders

/-! ## The lookups -/

namespace detail

/-- `detail::HasHeader`. -/
def hasHeader (headers : HeaderTree) (key : Str) : Bool := (SearchTree.find ci key headers).isSome

/-- `detail::GetHeaderValue`: a pointer to the value, or the default. -/
def getHeaderValue (headers : HeaderTree) (key dflt : Str) : Str :=
  match SearchTree.find ci key headers with
  | some item => item.2
  | none => dflt

end detail

/-- The `std::string` that is made of a `const char*`. -/
def ofCString (text : Str) : Str := upTo nul text

/-- `Request::HasHeader`. -/
def Request.hasHeader (r : Request) (key : Str) : Bool := detail.hasHeader r.headers.tree key

/-- `Request::GetHeaderValue`: the default goes unused. -/
def Request.getHeaderValue (r : Request) (key _dflt : Str) : Str :=
  ofCString (detail.getHeaderValue r.headers.tree key [])

/-- `Response::HasHeader`. -/
def Response.hasHeader (r : Response) (key : Str) : Bool :=
  (SearchTree.find ci key r.headers.tree).isSome

/-- `Response::GetHeaderValue`: the default goes unused. -/
def Response.getHeaderValue (r : Response) (key _dflt : Str) : Str :=
  ofCString (detail.getHeaderValue r.headers.tree key [])

/-! ## Runs of `SetHeader` -/

/-- A call of `SetHeader`, of a text or of a number. -/
inductive HeaderCall where
  | text (key val : Str)
  | number (key : Str) (val : Int64)

/-- The name and the text that a call stores. -/
def HeaderCall.item : HeaderCall → Str × Str
  | .text key val => (key, val)
  | .number key val => (key, toText val.toInt)

/-- A call of `Request::SetHeader`. -/
def Request.callSetHeader (r : Request) : HeaderCall → Request
  | .text key val => r.setHeader key val
  | .number key val => r.setHeaderInt key val.toInt

/-- A call of `Response::SetHeader`. -/
def Response.callSetHeader (r : Response) : HeaderCall → Response
  | .text key val => r.setHeader key val
  | .number key val => r.setHeaderInt key val.toInt

/-- The value that is stored first for a key: the one from before, or that of the first call for it
that is accepted. -/
def storedFirst (before : TypeHeaders) (calls : List HeaderCall) (key : Str) : Option Str :=
  (before.find key).or ((calls.find? fun call =>
    headerPasses call.item && decide (lower call.item.1 = lower key)).map fun call => call.item.2)

/-- The calls on the headers. -/
def TypeHeaders.callSet (headers : TypeHeaders) (call : HeaderCall) : TypeHeaders :=
  headers.set call.item.1 call.item.2

theorem Request.headers_run (r : Request) (calls : List HeaderCall) :
    (runFrom Request.callSetHeader r calls).headers =
      runFrom TypeHeaders.callSet r.headers calls := by
  have hcall : ∀ (r : Request) call,
      (r.callSetHeader call).headers = r.headers.callSet call := by
    intro r call
    cases call with
    | text key val => rfl
    | number key val => rfl
  have hrun := map_runFrom (g := id) hcall r calls
  rwa [List.map_id] at hrun

theorem Response.headers_run (r : Response) (calls : List HeaderCall) :
    (runFrom Response.callSetHeader r calls).headers =
      runFrom TypeHeaders.callSet r.headers calls := by
  have hcall : ∀ (r : Response) call,
      (r.callSetHeader call).headers = r.headers.callSet call := by
    intro r call
    cases call with
    | text key val => rfl
    | number key val => rfl
  have hrun := map_runFrom (g := id) hcall r calls
  rwa [List.map_id] at hrun

/-- **What a run of `SetHeader` leaves**: for each key the value stored first. -/
theorem TypeHeaders.find_run (headers : TypeHeaders) (calls : List HeaderCall) (key : Str) :
    (runFrom TypeHeaders.callSet headers calls).find key = storedFirst headers calls key := by
  induction calls generalizing headers with
  | nil => exact (Option.or_none).symm
  | cons call calls ih =>
      rw [runFrom, ih, storedFirst, storedFirst, TypeHeaders.callSet, TypeHeaders.find_set,
        List.find?_cons]
      by_cases hstores : headerPasses call.item = true ∧ lower call.item.1 = lower key
      · rw [if_pos hstores]
        simp only [hstores.1, hstores.2, decide_true, Bool.and_self]
        cases headers.find key with
        | none => rfl
        | some old => rfl
      · rw [if_neg hstores]
        have hskip :
            (headerPasses call.item && decide (lower call.item.1 = lower key)) = false := by
          rw [← Bool.not_eq_true, Bool.and_eq_true, decide_eq_true_eq]
          exact hstores
        rw [hskip]

/-! ## What the lookups answer -/

/-- **The intended answers**: the value, or the default where there is none; whether there is one;
and a map in which no stored header is out of reach. -/
structure HeaderAnswers (headers : TypeHeaders) (stored : Option Str) (dflt value : Str)
    (has : Bool) : Prop where
  value : value = stored.getD (ofCString dflt)
  has : has = true ↔ stored.isSome = true
  order : IsStrictWeakOrder Str fun s1 s2 => ci s1 s2 = true
  reachable : ∀ tree, SearchTree.items tree = SearchTree.items headers.tree →
    ∀ item ∈ headers.items, SearchTree.find ci item.1 tree = some item

/-- The value has no NUL; where there is no value, the default is empty. -/
def CarriedWhole (stored : Option Str) (dflt : Str) : Prop :=
  match stored with
  | some value => nul ∉ value
  | none => ofCString dflt = []

theorem ofCString_eq_iff (text : Str) : ofCString text = text ↔ nul ∉ text := by
  constructor
  · intro h hmem
    rw [← h] at hmem
    exact not_mem_upTo nul text hmem
  · exact upTo_of_not_mem

theorem hasHeader_tree (headers : TypeHeaders) (key : Str) :
    detail.hasHeader headers.tree key = (headers.find key).isSome := by
  rw [detail.hasHeader, ← headers.find_tree rfl key, Option.isSome_map]

theorem getHeaderValue_tree (headers : TypeHeaders) (key dflt : Str) :
    detail.getHeaderValue headers.tree key dflt = (headers.find key).getD dflt := by
  rw [detail.getHeaderValue, ← headers.find_tree rfl key]
  cases SearchTree.find ci key headers.tree with
  | none => rfl
  | some item => rfl

/-- When a value that passes through a C string, without the default, is the intended one. -/
theorem ofCString_getD_eq_iff (stored : Option Str) (dflt : Str) :
    ofCString (stored.getD []) = stored.getD (ofCString dflt) ↔ CarriedWhole stored dflt := by
  cases stored with
  | some value => exact ofCString_eq_iff value
  | none => exact eq_comm

/-- The answers that come out of the tree are the intended ones exactly where the value is carried
whole. -/
theorem headerAnswers_iff (headers : TypeHeaders) (key dflt : Str) :
    HeaderAnswers headers (headers.find key) dflt
        (ofCString (detail.getHeaderValue headers.tree key []))
        (detail.hasHeader headers.tree key) ↔
      CarriedWhole (headers.find key) dflt := by
  rw [getHeaderValue_tree, hasHeader_tree, ← ofCString_getD_eq_iff]
  constructor
  · exact fun h => h.value
  · exact fun hvalue => ⟨hvalue, Iff.rfl, isStrictWeakOrder_ci, fun _ htree _ hitem =>
      headers.find_tree_of_mem htree hitem⟩

/-- The answers of a request behind calls of `SetHeader`. -/
def Request.HeadersExact (q : Request) (calls : List HeaderCall) (key dflt : Str) : Prop :=
  let r := runFrom Request.callSetHeader q calls
  HeaderAnswers r.headers (storedFirst q.headers calls key) dflt (r.getHeaderValue key dflt)
    (r.hasHeader key)

/-- The answers of a response behind calls of `SetHeader`. -/
def Response.HeadersExact (p : Response) (calls : List HeaderCall) (key dflt : Str) : Prop :=
  let r := runFrom Response.callSetHeader p calls
  HeaderAnswers r.headers (storedFirst p.headers calls key) dflt (r.getHeaderValue key dflt)
    (r.hasHeader key)

/-- **When the headers come back**, behind any calls of `SetHeader` on any request and response:
where the value stored first has no NUL, and where none is stored and the default is empty. -/
theorem headers_exact_iff (q : Request) (p : Response) (calls : List HeaderCall)
    (key dflt : Str) :
    (q.HeadersExact calls key dflt ↔ CarriedWhole (storedFirst q.headers calls key) dflt) ∧
      (p.HeadersExact calls key dflt ↔ CarriedWhole (storedFirst p.headers calls key) dflt) := by
  constructor
  · have hexact := headerAnswers_iff (runFrom Request.callSetHeader q calls).headers key dflt
    rw [Request.headers_run, TypeHeaders.find_run, ← Request.headers_run] at hexact
    exact hexact
  · have hexact := headerAnswers_iff (runFrom Response.callSetHeader p calls).headers key dflt
    rw [Response.headers_run, TypeHeaders.find_run, ← Response.headers_run] at hexact
    exact hexact

/-- A default does not come back, and a value with a NUL comes back cut. -/
theorem not_headers_exact :
    ¬ Request.fresh.HeadersExact [] (str "Host") (str "none") ∧
      ¬ Response.fresh.HeadersExact [.text (str "ETag") ['a', nul, 'b']] (str "etag") [] := by
  refine ⟨fun h => ?_, fun h => ?_⟩
  · exact absurd h.value (by decide)
  · exact absurd h.value (by decide)

end Ssgx.Http
