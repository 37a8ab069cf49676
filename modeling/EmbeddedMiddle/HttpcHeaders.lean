import EmbeddedMiddle.Httpc
import EmbeddedMiddle.Foundation.NamedHandles
import EmbeddedMiddle.Foundation.Transition

/-!
# Headers of the HTTP client

The lists of libcurl behind `em_httphdr_t` and the common headers of
`em_httpc_t`: when each request is sent with the headers that were added for
it, and no list is lost or used after it was freed.  libcurl is given from
outside, with what its documentation says of such lists.
-/

namespace EmbeddedMiddle

open Foundation

/-! ## The lists of libcurl -/

abbrev HeaderTexts := List (List UInt8)

/-- The functions that work on lists of strings, over the memory of libcurl.  A
list is known by an address; 0 is NULL.  `curlEasyPerform` is a transfer with
the list of `CURLOPT_HTTPHEADER`, NULL if none was set, and gives the headers
from this list that were sent. -/
structure Libcurl (Memory : Type) where
  curlSlistAppend : Memory → ℕ → List UInt8 → ℕ × Memory
  curlSlistFreeAll : Memory → ℕ → Memory
  curlEasyPerform : Memory → ℕ → HeaderTexts × Memory

namespace Libcurl

variable {Memory : Type}

/-- `texts` are the lists that there are.  Nothing is said of calls with other
addresses. -/
structure Documented (libcurl : Libcurl Memory)
    (texts : Memory → ℕ → Option HeaderTexts) : Prop where
  null : ∀ memory, texts memory 0 = none
  /-- The list is returned with one text more; NULL makes a new one. -/
  appended : ∀ {memory list text node after},
    list = 0 ∨ texts memory list ≠ none →
      libcurl.curlSlistAppend memory list text = (node, after) → node ≠ 0 →
        (node = list ∨ texts memory node = none) ∧
          texts after =
            Function.update (Function.update (texts memory) list none) node
              (some ((texts memory list).getD [] ++ [text]))
  freed : ∀ {memory list}, list = 0 ∨ texts memory list ≠ none →
    texts (libcurl.curlSlistFreeAll memory list) =
      Function.update (texts memory) list none
  performed : ∀ {memory list headers after},
    list = 0 ∨ texts memory list ≠ none →
      libcurl.curlEasyPerform memory list = (headers, after) →
        headers = (texts memory list).getD [] ∧ texts after = texts memory

/-! A libcurl that does so keeps its lists in the order in which they were
made, and numbers them from 1 on. -/

end Libcurl

/-! ## Calls -/

/-- The pointers `header_slist` of all variables, of both types; the lists that
libcurl has made and not freed, and whether it has only got these; which of the
variables have had headers added since they were last initialised, reset or
destroyed, and which headers; and for every request the headers it was sent
with and those it was meant to have. -/
structure HttpcHeaders (Var Memory : Type) where
  headerSlist : Var → ℕ
  memory : Memory
  live : Finset ℕ
  lawful : Bool
  held : Finset Var
  added : Var → HeaderTexts
  requests : List (HeaderTexts × HeaderTexts)

/-- `request` is `em_httpc_get` or `em_httpc_post`. -/
inductive HeaderCall (Var : Type) where
  | init (var : Var)
  | addHeader (var : Var) (headerStr : List UInt8)
  | resetHeader (var : Var)
  | destroy (var : Var)
  | request (hc : Var) (headers : Option Var)
  | postMultipart (hc : Var) (headers : Option Var)

namespace HttpcHeaders

variable {Var Memory : Type} [DecidableEq Var]

def start (headerSlist : Var → ℕ) (memory : Memory) :
    HttpcHeaders Var Memory :=
  ⟨headerSlist, memory, ∅, true, ∅, fun _ => [], []⟩

omit [DecidableEq Var] in
/-- A pointer that libcurl may follow. -/
def Allowed (state : HttpcHeaders Var Memory) (list : ℕ) : Prop :=
  list = 0 ∨ list ∈ state.live

instance (state : HttpcHeaders Var Memory) (list : ℕ) :
    Decidable (state.Allowed list) :=
  inferInstanceAs (Decidable (_ ∨ _))

/-- `em_httpc_init` and `em_httphdr_init`. -/
def emHttphdrInit (state : HttpcHeaders Var Memory) (var : Var) :
    HttpcHeaders Var Memory :=
  { state with
    headerSlist := Function.update state.headerSlist var 0
    held := state.held.erase var
    added := Function.update state.added var [] }

/-- `em_httpc_add_header` and `em_httphdr_add_header`. -/
def emHttphdrAddHeader (libcurl : Libcurl Memory)
    (state : HttpcHeaders Var Memory) (var : Var) (headerStr : List UInt8) :
    HttpcHeaders Var Memory :=
  let list := state.headerSlist var
  let (node, memory) := libcurl.curlSlistAppend state.memory list headerStr
  { state with
    headerSlist := Function.update state.headerSlist var node
    memory
    live := if node = 0 then state.live else insert node (state.live.erase list)
    lawful := state.lawful && decide (state.Allowed list)
    held := insert var state.held
    added := Function.update state.added var (state.added var ++ [headerStr]) }

/-- `em_httpc_destroy` and `em_httphdr_destroy` leave the pointer. -/
def emHttphdrDestroy (libcurl : Libcurl Memory)
    (state : HttpcHeaders Var Memory) (var : Var) : HttpcHeaders Var Memory :=
  let list := state.headerSlist var
  { state with
    memory := libcurl.curlSlistFreeAll state.memory list
    live := state.live.erase list
    lawful := state.lawful && decide (state.Allowed list)
    held := state.held.erase var
    added := Function.update state.added var [] }

def emHttpcResetHeader (libcurl : Libcurl Memory)
    (state : HttpcHeaders Var Memory) (var : Var) : HttpcHeaders Var Memory :=
  let state := state.emHttphdrDestroy libcurl var
  { state with headerSlist := Function.update state.headerSlist var 0 }

/-- The variable of which a request takes the headers. -/
def source (hc : Var) (headers : Option Var) : Var := headers.getD hc

def sendHeaders (libcurl : Libcurl Memory) (state : HttpcHeaders Var Memory)
    (list : ℕ) (wanted : HeaderTexts) : HttpcHeaders Var Memory :=
  let (headers, memory) := libcurl.curlEasyPerform state.memory list
  { state with
    memory
    lawful := state.lawful && decide (state.Allowed list)
    requests := state.requests ++ [(headers, wanted)] }

def after (libcurl : Libcurl Memory) (state : HttpcHeaders Var Memory) :
    HeaderCall Var → HttpcHeaders Var Memory
  | .init var => state.emHttphdrInit var
  | .addHeader var headerStr => state.emHttphdrAddHeader libcurl var headerStr
  | .resetHeader var => state.emHttpcResetHeader libcurl var
  | .destroy var => state.emHttphdrDestroy libcurl var
  | .request hc headers =>
      let var := source hc headers
      state.sendHeaders libcurl (state.headerSlist var) (state.added var)
  -- A multipart request sets no headers.
  | .postMultipart hc headers =>
      state.sendHeaders libcurl 0 (state.added (source hc headers))

def Step (libcurl : Libcurl Memory) (before : HttpcHeaders Var Memory)
    (call : HeaderCall Var) (next : HttpcHeaders Var Memory) : Prop :=
  next = before.after libcurl call

/-! ## Headers in order -/

/-- Every request was sent with the headers it was meant to have; each list is
that of one variable, with what was added to it, and no freed list was
touched. -/
structure Sound (state : HttpcHeaders Var Memory)
    (texts : Memory → ℕ → Option HeaderTexts) : Prop where
  lawful : state.lawful = true
  named : Named state.headerSlist state.held state.live
  kept : ∀ var ∈ state.held,
    texts state.memory (state.headerSlist var) = some (state.added var)
  meant : ∀ request ∈ state.requests, request.1 = request.2

/-- A variable is held when headers were added, and the lists that were made
are there. -/
structure Booked (state : HttpcHeaders Var Memory)
    (texts : Memory → ℕ → Option HeaderTexts) : Prop where
  held : ∀ var, var ∈ state.held ↔ state.added var ≠ []
  listed : ∀ list, list ∈ state.live ↔ texts state.memory list ≠ none

/-- The variable points to its list or to none. -/
def Usable (state : HttpcHeaders Var Memory) (var : Var) : Prop :=
  var ∈ state.held ∨ state.headerSlist var = 0

/-- Variables are initialised before they are used and after they are
destroyed, not in between; there is memory for every header; a multipart
request is made without headers. -/
def Careful (libcurl : Libcurl Memory) (state : HttpcHeaders Var Memory) :
    HeaderCall Var → Prop
  | .init var => var ∉ state.held
  | .addHeader var headerStr =>
      state.Usable var ∧
        (libcurl.curlSlistAppend state.memory (state.headerSlist var)
          headerStr).1 ≠ 0
  | .resetHeader var => state.Usable var
  | .destroy var => state.Usable var
  | .request hc headers => state.Usable (source hc headers)
  | .postMultipart hc headers => source hc headers ∉ state.held

variable {libcurl : Libcurl Memory}
  {texts : Memory → ℕ → Option HeaderTexts}
  {state : HttpcHeaders Var Memory} {var other : Var} {list : ℕ}

namespace Booked

omit [DecidableEq Var] in
theorem added_eq (booked : state.Booked texts) (unused : var ∉ state.held) :
    state.added var = [] := by
  by_contra some
  exact unused ((booked.held var).mpr some)

omit [DecidableEq Var] in
theorem null (booked : state.Booked texts) (curl : libcurl.Documented texts) :
    0 ∉ state.live :=
  fun isLive => (booked.listed 0).mp isLive (curl.null state.memory)

omit [DecidableEq Var] in
theorem known (booked : state.Booked texts) (allowed : state.Allowed list) :
    list = 0 ∨ texts state.memory list ≠ none :=
  allowed.imp_right (booked.listed list).mp

omit [DecidableEq Var] in
/-- A list that may be followed is given up by a usable variable or by none. -/
theorem free_iff (booked : state.Booked texts)
    (curl : libcurl.Documented texts)
    (allowed : state.Allowed (state.headerSlist var)) :
    (var ∈ state.held ∨ state.headerSlist var ∉ state.live) ↔
      state.Usable var := by
  constructor
  · rintro (member | dead)
    · exact .inl member
    · exact .inr (allowed.resolve_right dead)
  · rintro (member | null)
    · exact .inl member
    · rw [null]
      exact .inr (booked.null curl)

omit [DecidableEq Var] in
/-- What is returned is a new list, or the one that was given. -/
theorem fresh (booked : state.Booked texts) (curl : libcurl.Documented texts)
    (allowed : state.Allowed list) {text : List UInt8} {node : ℕ}
    {memory : Memory}
    (returned :
      libcurl.curlSlistAppend state.memory list text = (node, memory))
    (notNull : node ≠ 0) : node ∉ state.live.erase list := by
  have same := (curl.appended (booked.known allowed) returned notNull).1
  rw [Finset.mem_erase, booked.listed]
  rintro ⟨different, there⟩
  rcases same with again | unknown
  · exact different again
  · exact there unknown

end Booked

namespace Sound

omit [DecidableEq Var] in
theorem ne_null (sound : state.Sound texts) (booked : state.Booked texts)
    (curl : libcurl.Documented texts) (member : var ∈ state.held) :
    state.headerSlist var ≠ 0 := by
  intro null
  have isLive := sound.named.mem_live member
  rw [null] at isLive
  exact booked.null curl isLive

omit [DecidableEq Var] in
theorem allowed (sound : state.Sound texts) (usable : state.Usable var) :
    state.Allowed (state.headerSlist var) :=
  usable.symm.imp_right sound.named.mem_live

omit [DecidableEq Var] in
theorem unused_of_null (sound : state.Sound texts)
    (booked : state.Booked texts) (curl : libcurl.Documented texts)
    (null : state.headerSlist var = 0) : var ∉ state.held :=
  fun member => sound.ne_null booked curl member null

omit [DecidableEq Var] in
/-- The list of a usable variable has what was added to it. -/
theorem texts_eq (sound : state.Sound texts) (booked : state.Booked texts)
    (curl : libcurl.Documented texts) (usable : state.Usable var) :
    (texts state.memory (state.headerSlist var)).getD [] =
      state.added var := by
  rcases usable with member | null
  · rw [sound.kept var member, Option.getD_some]
  · have unused := sound.unused_of_null booked curl null
    rw [null, curl.null, Option.getD_none, booked.added_eq unused]

omit [DecidableEq Var] in
/-- No other variable points to the list of a usable one. -/
theorem others_differ (sound : state.Sound texts) (booked : state.Booked texts)
    (curl : libcurl.Documented texts) (usable : state.Usable var)
    (member : other ∈ state.held) (different : other ≠ var) :
    state.headerSlist other ≠ state.headerSlist var := by
  intro same
  rcases usable with held | null
  · exact different (sound.named.paired.injOn member held same)
  · exact sound.ne_null booked curl member (same.trans null)

/-! ### Requests -/

omit [DecidableEq Var] in
theorem sendHeaders_iff (sound : state.Sound texts)
    (booked : state.Booked texts) (curl : libcurl.Documented texts)
    (list : ℕ) (wanted : HeaderTexts) :
    (state.sendHeaders libcurl list wanted).Sound texts ↔
      state.Allowed list ∧ (texts state.memory list).getD [] = wanted := by
  constructor
  · intro kept
    have lawful := kept.lawful
    simp only [sendHeaders, sound.lawful, Bool.true_and, decide_eq_true_eq]
      at lawful
    have sent := (curl.performed (booked.known lawful)
      Prod.mk.eta.symm).1
    have meant := kept.meant _ (List.mem_append_right _
      (List.mem_singleton.mpr rfl))
    exact ⟨lawful, sent.symm.trans meant⟩
  · rintro ⟨allowed, same⟩
    obtain ⟨sent, unchanged⟩ := curl.performed (booked.known allowed)
      Prod.mk.eta.symm
    refine ⟨?_, sound.named, ?_, ?_⟩
    · simp [sendHeaders, sound.lawful, allowed]
    · dsimp only [sendHeaders]
      rw [unchanged]
      exact sound.kept
    · intro request member
      rcases List.mem_append.mp member with earlier | last
      · exact sound.meant request earlier
      · rw [List.mem_singleton.mp last]
        exact sent.trans same

omit [DecidableEq Var] in
/-- A list that may be followed and has the right headers is the variable's
own. -/
theorem usable_iff (sound : state.Sound texts) (booked : state.Booked texts)
    (curl : libcurl.Documented texts) (var : Var) :
    (state.Allowed (state.headerSlist var) ∧
      (texts state.memory (state.headerSlist var)).getD [] =
        state.added var) ↔ state.Usable var := by
  constructor
  · rintro ⟨allowed, same⟩
    by_contra unusable
    obtain ⟨unused, notNull⟩ := not_or.mp unusable
    have isLive : state.headerSlist var ∈ state.live :=
      allowed.resolve_left notNull
    obtain ⟨other, member, shared⟩ := sound.named.paired.surjOn isLive
    rw [← shared, sound.kept other member, Option.getD_some,
      booked.added_eq unused] at same
    exact (booked.held other).mp member same
  · intro usable
    exact ⟨sound.allowed usable, sound.texts_eq booked curl usable⟩

/-! ### Variables and their lists -/

theorem init_iff (sound : state.Sound texts) (var : Var) :
    (state.emHttphdrInit var).Sound texts ↔ var ∉ state.held := by
  constructor
  · intro kept
    exact sound.named.forget_iff.mp kept.named
  · intro unused
    refine ⟨sound.lawful, sound.named.forget_iff.mpr unused, ?_, sound.meant⟩
    intro other member
    obtain ⟨different, held⟩ := Finset.mem_erase.mp member
    simp only [emHttphdrInit, Function.update_of_ne different]
    exact sound.kept other held

theorem destroy_iff (sound : state.Sound texts) (booked : state.Booked texts)
    (curl : libcurl.Documented texts) (var : Var) :
    (state.emHttphdrDestroy libcurl var).Sound texts ↔ state.Usable var := by
  constructor
  · intro kept
    have lawful := kept.lawful
    simp only [emHttphdrDestroy, sound.lawful, Bool.true_and,
      decide_eq_true_eq] at lawful
    exact (booked.free_iff curl lawful).mp
      (sound.named.release_iff.mp kept.named)
  · intro usable
    have allowed := sound.allowed usable
    have free := (booked.free_iff curl allowed).mpr usable
    refine ⟨?_, sound.named.release_iff.mpr free, ?_, sound.meant⟩
    · simp [emHttphdrDestroy, sound.lawful, allowed]
    · intro other stays
      obtain ⟨different, member⟩ := Finset.mem_erase.mp stays
      have elsewhere :=
        sound.others_differ booked curl usable member different
      dsimp only [emHttphdrDestroy]
      rw [curl.freed (booked.known allowed),
        Function.update_of_ne elsewhere, Function.update_of_ne different]
      exact sound.kept other member

theorem resetHeader_iff (sound : state.Sound texts)
    (booked : state.Booked texts) (curl : libcurl.Documented texts)
    (var : Var) :
    (state.emHttpcResetHeader libcurl var).Sound texts ↔
      state.Usable var := by
  rw [← sound.destroy_iff booked curl var]
  have unused : var ∉ (state.emHttphdrDestroy libcurl var).held :=
    Finset.notMem_erase var state.held
  have others : ∀ other ∈ (state.emHttphdrDestroy libcurl var).held,
      Function.update (state.emHttphdrDestroy libcurl var).headerSlist var 0
          other =
        (state.emHttphdrDestroy libcurl var).headerSlist other := by
    intro other member
    apply Function.update_of_ne
    rintro rfl
    exact unused member
  constructor
  · intro kept
    refine ⟨kept.lawful, (Named.update_unused_iff unused).mp kept.named, ?_,
      kept.meant⟩
    intro other member
    rw [← others other member]
    exact kept.kept other member
  · intro kept
    refine ⟨kept.lawful, (Named.update_unused_iff unused).mpr kept.named, ?_,
      kept.meant⟩
    intro other member
    simp only [emHttpcResetHeader]
    rw [others other member]
    exact kept.kept other member

/-! ### Adding a header -/

/-- The list of a usable variable gets one text more. -/
theorem addHeader (sound : state.Sound texts) (booked : state.Booked texts)
    (curl : libcurl.Documented texts) {headerStr : List UInt8}
    (usable : state.Usable var)
    (notNull : (libcurl.curlSlistAppend state.memory (state.headerSlist var)
      headerStr).1 ≠ 0) :
    (state.emHttphdrAddHeader libcurl var headerStr).Sound texts := by
  have allowed := sound.allowed usable
  have free := (booked.free_iff curl allowed).mpr usable
  have fresh := booked.fresh curl allowed Prod.mk.eta.symm notNull
  obtain ⟨_, more⟩ := curl.appended (booked.known allowed)
    Prod.mk.eta.symm notNull
  have named := (sound.named.renew_iff fresh).mpr free
  refine ⟨?_, ?_, ?_, sound.meant⟩
  · simp [emHttphdrAddHeader, sound.lawful, allowed]
  · simpa only [emHttphdrAddHeader, if_neg notNull] using named
  · intro other member
    dsimp only [emHttphdrAddHeader] at member ⊢
    rw [more]
    by_cases here : other = var
    · rw [here, Function.update_self, Function.update_self,
        Function.update_self, sound.texts_eq booked curl usable]
    · have held := (Finset.mem_insert.mp member).resolve_left here
      have elsewhere := sound.others_differ booked curl usable held here
      have notNew : state.headerSlist other ≠
          (libcurl.curlSlistAppend state.memory (state.headerSlist var)
            headerStr).1 := by
        intro same
        apply fresh
        rw [← same]
        exact Finset.mem_erase.mpr ⟨elsewhere, sound.named.mem_live held⟩
      rw [Function.update_of_ne here, Function.update_of_ne notNew,
        Function.update_of_ne elsewhere, Function.update_of_ne here]
      exact sound.kept other held

theorem addHeader_iff (sound : state.Sound texts)
    (booked : state.Booked texts) (curl : libcurl.Documented texts)
    (var : Var) (headerStr : List UInt8) :
    (state.emHttphdrAddHeader libcurl var headerStr).Sound texts ↔
      state.Usable var ∧
        (libcurl.curlSlistAppend state.memory (state.headerSlist var)
          headerStr).1 ≠ 0 := by
  constructor
  · intro kept
    have lawful := kept.lawful
    have named := kept.named
    simp only [emHttphdrAddHeader, sound.lawful, Bool.true_and,
      decide_eq_true_eq] at lawful named
    have notNull : (libcurl.curlSlistAppend state.memory
        (state.headerSlist var) headerStr).1 ≠ 0 := by
      intro refused
      have isLive := named.mem_live (Finset.mem_insert_self var state.held)
      rw [Function.update_self, if_pos refused, refused] at isLive
      exact booked.null curl isLive
    rw [if_neg notNull] at named
    have fresh := booked.fresh curl lawful Prod.mk.eta.symm notNull
    have free := (sound.named.renew_iff fresh).mp named
    exact ⟨(booked.free_iff curl lawful).mp free, notNull⟩
  · rintro ⟨usable, notNull⟩
    exact sound.addHeader booked curl usable notNull

end Sound

/-! ## Runs -/

variable {before next : HttpcHeaders Var Memory} {call : HeaderCall Var}

/-- Headers are forgotten together with the variable. -/
theorem Booked.forget (booked : state.Booked texts) (var : Var)
    {headerSlist : Var → ℕ} {memory : Memory} {live : Finset ℕ}
    {lawful : Bool}
    (listed : ∀ list, list ∈ live ↔ texts memory list ≠ none) :
    Booked { state with
      headerSlist
      memory
      live
      lawful
      held := state.held.erase var
      added := Function.update state.added var [] } texts := by
  refine ⟨?_, listed⟩
  intro other
  by_cases here : other = var
  · simp [here]
  · simp [here, booked.held other]

omit [DecidableEq Var] in
theorem Booked.freed (booked : state.Booked texts)
    (curl : libcurl.Documented texts) (allowed : state.Allowed list)
    (other : ℕ) :
    other ∈ state.live.erase list ↔
      texts (libcurl.curlSlistFreeAll state.memory list) other ≠ none := by
  rw [curl.freed (booked.known allowed), Finset.mem_erase]
  by_cases here : other = list
  · simp [here]
  · simp [here, booked.listed other]

theorem Booked.addHeader (booked : state.Booked texts)
    (curl : libcurl.Documented texts) {headerStr : List UInt8}
    (allowed : state.Allowed (state.headerSlist var))
    (notNull : (libcurl.curlSlistAppend state.memory (state.headerSlist var)
      headerStr).1 ≠ 0) :
    (state.emHttphdrAddHeader libcurl var headerStr).Booked texts := by
  obtain ⟨_, more⟩ := curl.appended (booked.known allowed)
    Prod.mk.eta.symm notNull
  refine ⟨?_, ?_⟩
  · intro other
    simp only [emHttphdrAddHeader, Finset.mem_insert]
    by_cases here : other = var
    · simp [here]
    · simp [here, booked.held other]
  · intro list
    simp only [emHttphdrAddHeader, if_neg notNull, Finset.mem_insert,
      Finset.mem_erase, more]
    by_cases isNew : list = (libcurl.curlSlistAppend state.memory
        (state.headerSlist var) headerStr).1
    · simp [isNew]
    · rw [Function.update_of_ne isNew]
      by_cases here : list = state.headerSlist var
      · subst here
        simp [isNew]
      · simp [isNew, here, booked.listed list]

omit [DecidableEq Var] in
theorem Booked.sendHeaders (booked : state.Booked texts)
    (curl : libcurl.Documented texts) (allowed : state.Allowed list)
    (wanted : HeaderTexts) :
    (state.sendHeaders libcurl list wanted).Booked texts := by
  refine ⟨booked.held, ?_⟩
  dsimp only [HttpcHeaders.sendHeaders]
  rw [(curl.performed (booked.known allowed)
      Prod.mk.eta.symm).2]
  exact booked.listed

theorem Booked.step (booked : before.Booked texts)
    (sound : before.Sound texts) (curl : libcurl.Documented texts)
    (careful : before.Careful libcurl call)
    (step : Step libcurl before call next) : next.Booked texts := by
  subst step
  cases call with
  | init var => exact booked.forget var booked.listed
  | addHeader var headerStr =>
      exact booked.addHeader curl (sound.allowed careful.1) careful.2
  | resetHeader var =>
      exact booked.forget var (booked.freed curl (sound.allowed careful))
  | destroy var =>
      exact booked.forget var (booked.freed curl (sound.allowed careful))
  | request hc headers =>
      exact booked.sendHeaders curl (sound.allowed careful) _
  | postMultipart hc headers => exact booked.sendHeaders curl (.inl rfl) _

theorem Sound.step_iff (sound : before.Sound texts)
    (booked : before.Booked texts) (curl : libcurl.Documented texts)
    (step : Step libcurl before call next) :
    next.Sound texts ↔ before.Careful libcurl call := by
  subst step
  cases call with
  | init var => exact sound.init_iff var
  | addHeader var headerStr =>
      exact sound.addHeader_iff booked curl var headerStr
  | resetHeader var => exact sound.resetHeader_iff booked curl var
  | destroy var => exact sound.destroy_iff booked curl var
  | request hc headers =>
      exact (sound.sendHeaders_iff booked curl _ _).trans
        (sound.usable_iff booked curl _)
  | postMultipart hc headers =>
      refine (sound.sendHeaders_iff booked curl _ _).trans ?_
      rw [curl.null, Option.getD_none, and_iff_right (.inl rfl), Careful,
        booked.held, not_not, eq_comm]

end HttpcHeaders

end EmbeddedMiddle
