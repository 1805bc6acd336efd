import Std.Data.TreeMap.Lemmas
import Mathlib.Data.Finset.Card
import Mathlib.Order.Monotone.Defs
import MarkMachine.Proofs.History

/-! The heap over whole runs. Three instructions put something into the heap, a store and the two inputs, and
only when they are completed: each takes its address off the stack and fails, if it does, before it has put
anything. All others, and steps that fail, leave the heap alone. So an address holds what was last put there,
and the heap has as many cells as different addresses have been put to. -/

namespace MarkMachine

namespace Heap

theorem load_store (heap : Heap) (address other : Int64) (value : Value) :
    (heap.store address value).load other = if address = other then value else heap.load other := by
  simp [load, store, Std.TreeMap.getD_insert]

theorem mem_store {heap : Heap} {address other : Int64} {value : Value} :
    other ∈ heap.store address value ↔ address = other ∨ other ∈ heap := by
  simp [store, Std.TreeMap.mem_insert]

theorem size_store (heap : Heap) (address : Int64) (value : Value) :
    (heap.store address value).size = if address ∈ heap then heap.size else heap.size + 1 := by
  rw [store, Std.TreeMap.size_insert]
  rfl

end Heap

namespace Instruction

def isPut : Instruction → Bool
  | .store => true
  | .inputChar => true
  | .inputNumber => true
  | _ => false

/-- What is put into the heap by reading it: it goes where the top of the stack says. -/
def putRead? {α : Type} (reader : Feed.Reader α) (wrap : α → Value) (stack : Stack) (feed : Feed) :
    Option (Int64 × Value) :=
  match stack, reader feed with
  | address :: _, .ok value _ => some (address.toInteger, wrap value)
  | _, _ => none

/-- What an instruction puts into the heap if it is completed, and where, by the stack and the input that it
finds. -/
def put? (instruction : Instruction) (stack : Stack) (feed : Feed) : Option (Int64 × Value) :=
  match instruction with
  | .store =>
      match stack with
      | value :: address :: _ => some (address.toInteger, value)
      | _ => none
  | .inputChar => putRead? Feed.readChar .character stack feed
  | .inputNumber => putRead? Feed.readNumber .integer stack feed
  | _ => none

theorem put?_eq_none {instruction : Instruction} (h : instruction.isPut = false) (stack : Stack)
    (feed : Feed) : instruction.put? stack feed = none := by
  cases instruction <;> first | rfl | cases h

end Instruction

namespace Action

variable {α β : Type}

/-- An action that leaves the heap alone, whether or not it fails. -/
def KeepsHeap (action : Action α) : Prop :=
  ∀ session, (left (action session)).machine.heap = session.machine.heap

theorem KeepsHeap.bind {action : Action α} {next : α → Action β} (h : KeepsHeap action)
    (hnext : ∀ value, KeepsHeap (next value)) : KeepsHeap (action >>= next) := by
  intro session
  have hfirst := h session
  rw [bind_apply]
  cases hresult : action session with
  | error fault after =>
      rw [hresult] at hfirst
      exact hfirst
  | ok value middle =>
      rw [hresult] at hfirst
      exact (hnext value middle).trans hfirst

theorem keepsHeap_pure (value : α) : KeepsHeap (pure value : Action α) :=
  fun _ => rfl

theorem keepsHeap_throw (fault : Fault) : KeepsHeap (throw fault : Action α) :=
  fun _ => rfl

theorem keepsHeap_change {f : Machine → Machine} (h : ∀ machine, (f machine).heap = machine.heap) :
    KeepsHeap (change f) :=
  fun session => h session.machine

theorem keepsHeap_ask (f : Machine → Except Fault α) : KeepsHeap (ask f) := by
  intro session
  rw [ask]
  cases f session.machine <;> rfl

theorem keepsHeap_pop (instruction : String) (position : Nat) : KeepsHeap (pop instruction position) := by
  intro session
  rw [pop]
  cases session.machine.stack <;> rfl

theorem keepsHeap_goBack (position : Nat) : KeepsHeap (goBack position) := by
  intro session
  rw [goBack]
  cases session.machine.calls <;> rfl

theorem keepsHeap_toSink (write : Sink.Writer α) : KeepsHeap (toSink write) := by
  intro session
  rw [toSink]
  cases write session.sink <;> rfl

theorem keepsHeap_push (value : Value) : KeepsHeap (push value) :=
  keepsHeap_change fun _ => rfl

theorem keepsHeap_jump (label : Label) (position : Nat) : KeepsHeap (jump label position) :=
  (keepsHeap_ask _).bind fun _ => keepsHeap_change fun _ => rfl

theorem keepsHeap_perform {instruction : Instruction} (h : instruction.isPut = false) (position : Nat) :
    KeepsHeap (perform instruction position) := by
  cases instruction with
  | push value => exact keepsHeap_push _
  | duplicate => exact (keepsHeap_ask _).bind fun _ => keepsHeap_push _
  | swap =>
      refine (keepsHeap_ask _).bind fun _ => (keepsHeap_pop _ _).bind fun _ => ?_
      exact (keepsHeap_pop _ _).bind fun _ => (keepsHeap_push _).bind fun _ => keepsHeap_push _
  | discard => exact (keepsHeap_pop _ _).bind fun _ => keepsHeap_pure _
  | arithmetic operator =>
      refine (keepsHeap_ask _).bind fun _ => (keepsHeap_pop _ _).bind fun right => ?_
      refine (keepsHeap_pop _ _).bind fun left => ?_
      cases operator.apply? left.toInteger right.toInteger with
      | some result => exact keepsHeap_push _
      | none => exact keepsHeap_throw _
  | load =>
      exact (keepsHeap_pop _ _).bind fun _ => (keepsHeap_ask _).bind fun _ => keepsHeap_push _
  | define label => exact keepsHeap_pure _
  | call label => exact (keepsHeap_ask _).bind fun _ => keepsHeap_change fun _ => rfl
  | jump label => exact keepsHeap_jump _ _
  | jumpIfZero label =>
      refine (keepsHeap_pop _ _).bind fun value => ?_
      split_ifs
      · exact keepsHeap_jump _ _
      · exact keepsHeap_pure _
  | jumpIfNegative label =>
      refine (keepsHeap_pop _ _).bind fun value => ?_
      split_ifs
      · exact keepsHeap_jump _ _
      · exact keepsHeap_pure _
  | ret => exact keepsHeap_goBack _
  | stop => exact keepsHeap_change fun _ => rfl
  | outputChar =>
      refine (keepsHeap_pop _ _).bind fun value => ?_
      cases value.toChar? with
      | some c => exact keepsHeap_toSink _
      | none => exact keepsHeap_pure _
  | outputNumber => exact (keepsHeap_pop _ _).bind fun _ => keepsHeap_toSink _
  | debugPrint => exact keepsHeap_toSink _
  | store => cases h
  | inputChar => cases h
  | inputNumber => cases h

/-- What has come of an instruction that would put something into the heap: it is there, or the heap is as it
was before the instruction failed. -/
def PutResult (put : Option (Int64 × Value)) (heap : Heap) : EStateM.Result Fault Session Unit → Prop
  | .ok _ after => ∃ address value, put = some (address, value) ∧
      after.machine.heap = heap.store address value
  | .error _ after => after.machine.heap = heap

theorem putResult_store (position : Nat) (session : Session) :
    PutResult (Instruction.store.put? session.machine.stack session.feed) session.machine.heap
      (perform .store position session) := by
  obtain ⟨machine, feed, sink⟩ := session
  simp only [perform, bind_apply, ensure, ask]
  rcases hstack : machine.stack with _ | ⟨value, _ | ⟨address, below⟩⟩
  · rfl
  · rfl
  · simp only [Stack.ensure, List.length_cons, Nat.le_add_left, if_true, pop, hstack, Stack.pop]
    exact ⟨_, _, rfl, rfl⟩

/-- Reading something and then putting it where the top of the stack says. -/
theorem putResult_readInto (reader : Feed.Reader α) (wrap : α → Value) (name : String) (position : Nat)
    (session : Session) :
    PutResult (Instruction.putRead? reader wrap session.machine.stack session.feed) session.machine.heap
      ((do
        toSink Sink.flush
        let value ← fromFeed reader
        let address ← pop name position
        store address.toInteger (wrap value)) session) := by
  obtain ⟨machine, feed, sink⟩ := session
  simp only [bind_apply, toSink, Instruction.putRead?]
  cases Sink.flush sink with
  | error fault sink => rfl
  | ok _ sink =>
      simp only [fromFeed]
      cases reader feed with
      | error fault feed => rfl
      | ok value feed =>
          simp only [pop]
          cases machine.stack with
          | nil => rfl
          | cons address below => exact ⟨_, _, rfl, rfl⟩

theorem putResult_perform {instruction : Instruction} (h : instruction.isPut = true) (position : Nat)
    (session : Session) :
    PutResult (instruction.put? session.machine.stack session.feed) session.machine.heap
      (perform instruction position session) := by
  cases instruction with
  | store => exact putResult_store position session
  | inputChar => exact putResult_readInto Feed.readChar .character _ position session
  | inputNumber => exact putResult_readInto Feed.readNumber .integer _ position session
  | _ => cases h

end Action

namespace Session

/-- What the next step puts into the heap, and where, if it completes an instruction that does. -/
def put? (session : Session) : Option (Int64 × Value) :=
  session.completed?.bind fun instruction => instruction.put? session.machine.stack session.feed

/-- What a step can do to the heap. -/
inductive PutCase (session : Session) : Prop
  | put (address : Int64) (value : Value) (hput : session.put? = some (address, value))
      (hcompleted : session.completed?.any Instruction.isPut = true)
      (hheap : session.stepped.machine.heap = session.machine.heap.store address value)
  | kept (hput : session.put? = none) (hcompleted : session.completed?.any Instruction.isPut = false)
      (hheap : session.stepped.machine.heap = session.machine.heap)

theorem putCase {program : Program} {session : Session} (h : session.machine.OnCourse program) :
    PutCase session := by
  cases deed h with
  | idle lastPc halted hstepped _ _ hcompleted =>
      exact .kept (by simp [put?, hcompleted]) (by simp [hcompleted]) (by rw [hstepped])
  | failed span _ _ fault hperform _ _ hcompleted =>
      refine .kept (by simp [put?, hcompleted]) (by simp [hcompleted]) ?_
      cases hput : span.instruction.isPut with
      | false =>
          have hkeeps := Action.keepsHeap_perform hput span.position (session.start span)
          rwa [hperform] at hkeeps
      | true =>
          have hresult := Action.putResult_perform hput span.position (session.start span)
          rwa [hperform] at hresult
  | completed span _ _ hperform _ _ hcompleted =>
      cases hput : span.instruction.isPut with
      | false =>
          have hkeeps := Action.keepsHeap_perform hput span.position (session.start span)
          rw [hperform] at hkeeps
          refine .kept ?_ (by simp [hcompleted, hput]) hkeeps
          simp [put?, hcompleted, Instruction.put?_eq_none hput]
      | true =>
          have hresult := Action.putResult_perform hput span.position (session.start span)
          rw [hperform] at hresult
          obtain ⟨address, value, hvalue, hheap⟩ := hresult
          refine .put address value ?_ (by simp [hcompleted, hput]) hheap
          rw [put?, hcompleted]
          exact hvalue

/-- The addresses that the next so many steps put something to. -/
def addresses (session : Session) (count : Nat) : List Int64 :=
  (List.range count).filterMap fun index => (stepped^[index] session).put?.map Prod.fst

theorem addresses_succ (session : Session) (count : Nat) :
    session.addresses (count + 1) =
      session.addresses count ++ ((stepped^[count] session).put?.map Prod.fst).toList :=
  filterMap_range_succ _ count

/-- The last that the next so many steps put to an address. -/
inductive LastPut (session : Session) (address : Int64) : Nat → Value → Prop
  | put {count index : Nat} {value : Value} (hindex : index < count)
      (hput : (stepped^[index] session).put? = some (address, value))
      (hlast : ∀ later other, index < later → later < count →
        (stepped^[later] session).put? ≠ some (address, other)) : LastPut session address count value
  | none {count : Nat} (hnone : ∀ index other, index < count →
      (stepped^[index] session).put? ≠ some (address, other)) : LastPut session address count .unset

theorem LastPut.succ {session : Session} {address : Int64} {count : Nat} {value : Value}
    (h : session.LastPut address count value)
    (hkept : ∀ other, (stepped^[count] session).put? ≠ some (address, other)) :
    session.LastPut address (count + 1) value := by
  cases h with
  | put hindex hput hlast =>
      refine .put (Nat.lt_succ_of_lt hindex) hput fun later other hlater hle => ?_
      rcases Nat.lt_succ_iff_lt_or_eq.mp hle with hlt | rfl
      · exact hlast later other hlater hlt
      · exact hkept other
  | none hnone =>
      refine .none fun index other hle => ?_
      rcases Nat.lt_succ_iff_lt_or_eq.mp hle with hlt | rfl
      · exact hnone index other hlt
      · exact hkept other

section Run

variable {program : Program} {session : Session}
  (h : ∀ count, (stepped^[count] session).machine.OnCourse program) (hinitial : session.machine.heap = ∅)
include h hinitial

theorem lastPut_load (count : Nat) (address : Int64) :
    session.LastPut address count ((stepped^[count] session).machine.heap.load address) := by
  induction count with
  | zero =>
      rw [Function.iterate_zero_apply, hinitial]
      exact .none fun index _ hindex => absurd hindex (Nat.not_lt_zero index)
  | succ count ih =>
      rw [Function.iterate_succ_apply']
      cases putCase (h count) with
      | kept hput _ hheap =>
          rw [hheap]
          exact ih.succ (by simp [hput])
      | put place value hput _ hheap =>
          rw [hheap, Heap.load_store]
          split_ifs with hplace
          · subst hplace
            exact .put (Nat.lt_succ_self count) hput fun later _ hlater hle => by omega
          · exact ih.succ (by simp [hput, hplace])

theorem mem_heap_iff (count : Nat) (address : Int64) :
    address ∈ (stepped^[count] session).machine.heap ↔ address ∈ session.addresses count := by
  induction count with
  | zero => simp [hinitial, addresses]
  | succ count ih =>
      rw [Function.iterate_succ_apply', addresses_succ, List.mem_append, ← ih]
      cases putCase (h count) with
      | kept hput _ hheap => simp [hheap, hput]
      | put place value hput _ hheap => simp [hheap, hput, Heap.mem_store, or_comm, eq_comm]

theorem size_heap (count : Nat) :
    (stepped^[count] session).machine.heap.size = (session.addresses count).toFinset.card := by
  induction count with
  | zero => simp [hinitial, addresses]
  | succ count ih =>
      rw [Function.iterate_succ_apply', addresses_succ, List.toFinset_append]
      cases putCase (h count) with
      | kept hput _ hheap => simp [hheap, hput, ih]
      | put place value hput _ hheap =>
          have hmem := mem_heap_iff h hinitial count place
          have hadded : (session.addresses count).toFinset ∪ [place].toFinset =
              insert place (session.addresses count).toFinset := by
            simp [Finset.union_comm]
          rw [hheap, Heap.size_store, hput, ih, Option.map_some, Option.toList_some, hadded]
          split_ifs with hplace
          · rw [Finset.insert_eq_of_mem (List.mem_toFinset.mpr (hmem.mp hplace))]
          · rw [Finset.card_insert_of_notMem (mt List.mem_toFinset.mp (mt hmem.mpr hplace))]

end Run

/-- **The heap recalls what was last put into it.** After any steps from a loaded source, failed ones included,
an address holds what the last completed store or input put there, and nothing if there was none; a step puts
something into the heap just if it completes one of these instructions. The heap has as many cells as there
are different addresses to which something has been put, and never fewer after more steps. -/
theorem heap_recalls_last_put {source : String} {feed : Feed} {sink : Sink} {session : Session}
    (hload : Session.load source feed sink = .ok session) :
    (∀ index, (stepped^[index] session).put?.isSome =
      (stepped^[index] session).completed?.any Instruction.isPut) ∧
    (∀ count address, session.LastPut address count ((stepped^[count] session).machine.heap.load address)) ∧
    (∀ count, (stepped^[count] session).machine.heap.size = (session.addresses count).toFinset.card) ∧
    Monotone fun count => (stepped^[count] session).machine.heap.size := by
  have hcourse := onCourse_of_load hload
  have hinitial : session.machine.heap = ∅ := by
    obtain ⟨machine, hmachine, rfl⟩ := Session.load_eq_ok_iff.mp hload
    obtain ⟨_, rfl⟩ := Machine.ofProgram_eq_ok_iff.mp hmachine
    rfl
  have hsize := size_heap hcourse hinitial
  refine ⟨fun index => ?_, lastPut_load hcourse hinitial, hsize, monotone_nat_of_le_succ fun count => ?_⟩
  · cases putCase (hcourse index) with
    | put address value hput hcompleted _ => rw [hput, hcompleted, Option.isSome_some]
    | kept hput hcompleted _ => rw [hput, hcompleted, Option.isSome_none]
  · rw [hsize, hsize, addresses_succ, List.toFinset_append]
    exact Finset.card_le_card Finset.subset_union_left

/-- A program that reads a character into cell 0 and then takes that character for an address: the number 7
is put where the code point of the character says. -/
theorem heap_recalls_last_put_character :
    let program : Program := [.space, .space, .space, .line, .tab, .line, .tab, .space, .space, .space, .space,
      .line, .tab, .tab, .tab, .space, .space, .space, .tab, .tab, .tab, .line, .tab, .tab, .space]
    ∃ session, Session.load program.toSource ⟨[0x41], none⟩ {} = .ok session ∧
      session.LastPut 65 6 (.integer 7) ∧ session.LastPut 0 6 (.character 'A') ∧
      (session.addresses 6).toFinset.card = 2 := by
  intro program
  have hending : program.walk.ending = .ok 25 := by
    decide
  have hload := Session.load_toSource hending ⟨[0x41], none⟩ {}
  refine ⟨_, hload, ?_⟩
  generalize hsession : Session.mk _ _ _ = session at hload ⊢
  obtain ⟨_, hlast, hsize, _⟩ := heap_recalls_last_put hload
  have hstate : (stepped^[6] session).machine.heap.load 65 = .integer 7 ∧
      (stepped^[6] session).machine.heap.load 0 = .character 'A' ∧
      (stepped^[6] session).machine.heap.size = 2 := by
    subst hsession
    decide +kernel
  obtain ⟨hnumber, hcharacter, htwo⟩ := hstate
  exact ⟨hnumber ▸ hlast 6 65, hcharacter ▸ hlast 6 0, hsize 6 ▸ htwo⟩

end Session

end MarkMachine
