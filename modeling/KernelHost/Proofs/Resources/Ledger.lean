import KernelHost.Host.Program
import KernelHost.Proofs.Execution.Steps
import Mathlib.Logic.Function.Basic

/-!
# A ledger of resources

The host program as a machine that keeps a ledger: which handles are null, which resource each of
the others stands for, and what has been acquired and released so far.  Every call may fail; one
that fails leaves null behind.  Hooks and generators have no part in handles.
-/

namespace KernelHost.Host

open Code (Call Callee Condition Declarator Expr Initial Machine Stmt Var reportsStatus)

/-- The call that releases what a call acquires, if it acquires something as its result. -/
def releaser? : Callee → Option Callee
  | .malloc => some .free
  | .fopen => some .fclose
  | .clCreateContext => some .clReleaseContext
  | .clCreateCommandQueue | .clCreateCommandQueueWithProperties => some .clReleaseCommandQueue
  | .clCreateProgramWithBinary | .clCreateProgramWithSource => some .clReleaseProgram
  | .clCreateKernel => some .clReleaseKernel
  | .clCreateBuffer => some .clReleaseMemObject
  | _ => none

/-- Whether a call releases something. -/
def isReleaser : Callee → Bool
  | .free | .fclose | .clReleaseContext | .clReleaseCommandQueue | .clReleaseProgram
  | .clReleaseKernel | .clReleaseMemObject | .clReleaseEvent => true
  | _ => false

/-! ## States -/

/-- Where a handle may be kept. -/
inductive Place
  | var (v : Var)
  | slot (list : Var) (index : Nat)
  deriving DecidableEq

/-- Whether a variable is a number, so that it never holds a handle. -/
def isNumber : Var → Bool
  | .exitCode | .i | .j | .callStatus | .platformsLen | .devicesLen | .programSize
  | .programStatus | .loopFlag | .invalidDataFound | .iterations | .timeBefore | .timeAfter
  | .execTime | .workDim _ | .globalSize _ | .localSize _ | .tolerance _ => true
  | _ => false

/-- Whether the books follow a place: variables that are no numbers, and the completion lists. -/
def Place.kept : Place → Bool
  | .var v => !isNumber v
  | .slot (.tierDone _) _ => true
  | .slot _ _ => false

theorem Place.kept_slot_iff {list : Var} {k : Nat} :
    (Place.slot list k).kept ↔ ∃ tier, list = .tierDone tier := by
  cases list <;> simp [Place.kept]

/-- Something that was acquired. -/
structure Resource where
  /-- What tells it apart from others. -/
  number : Nat
  /-- The call that releases it. -/
  releaser : Callee
  deriving DecidableEq

/-- What a place holds. -/
inductive Content
  | null
  /-- A resource, released or not. -/
  | resource (r : Resource)
  /-- Something that is not known. -/
  | other
  deriving DecidableEq

/-- The resource that a place holds. -/
def Content.resource? : Content → Option Resource
  | .resource r => some r
  | _ => none

/-- What happens to resources. -/
inductive Deed
  | acquire (r : Resource)
  /-- A call releases what it is handed. -/
  | release (callee : Callee) (what : Content)
  deriving DecidableEq

/-- The part of a state that resources depend on. -/
structure Books where
  /-- What each place holds. -/
  content : Place → Content
  /-- What happened so far, the latest first. -/
  deeds : List Deed

namespace Books

/-- The books with another content of a place. -/
def put (b : Books) (place : Place) (c : Content) : Books :=
  if place.kept then { b with content := Function.update b.content place c } else b

/-- The books with another content of all elements of an array. -/
def fill (b : Books) (list : Var) (c : Content) : Books :=
  { b with content := fun place =>
      match place with
      | .slot l k => if l = list ∧ (Place.slot l k).kept then c else b.content place
      | .var _ => b.content place }

/-- The books behind a resource that is put in a place. -/
def acquire (b : Books) (place : Place) (r : Resource) : Books :=
  { b.put place (.resource r) with deeds := .acquire r :: b.deeds }

/-- The books behind the release of what a place holds; the place still holds it. -/
def release (b : Books) (callee : Callee) (place : Option Place) : Books :=
  { b with deeds := .release callee (place.elim .other b.content) :: b.deeds }

/-- A new resource is put in a place. -/
def Gains (place : Place) (callee : Callee) (b c : Books) : Prop :=
  ∃ r : Resource, r.releaser = callee ∧ .acquire r ∉ b.deeds ∧ c = b.acquire place r

end Books

/-- A state of the program, as far as resources depend on it. -/
structure Ledger where
  books : Books
  /-- The values of the variables that are numbers. -/
  number : Var → Nat

namespace Ledger

/-- The place that an expression denotes. -/
def place? (a : Ledger) : Expr → Option Place
  | .var v => some (.var v)
  | .index (.var list) (.number k) => some (.slot list k)
  | .index (.var list) (.var place) => some (.slot list (a.number place))
  | _ => none

/-- The last call of the runtime was successful. -/
def Succeeded (a : Ledger) : Prop :=
  a.number .callStatus = 0

/-- Only the numbers of some variables change. -/
def Touches (vs : Var → Prop) (a b : Ledger) : Prop :=
  ∀ v, ¬ vs v → b.number v = a.number v

end Ledger

namespace Books

variable (b : Books) (place other : Place) (c : Content)

@[simp]
theorem deeds_put : (b.put place c).deeds = b.deeds := by
  rw [put]
  split <;> rfl

theorem content_put_self (kept : place.kept) : (b.put place c).content place = c := by
  simp [put, kept]

theorem content_put_of_ne {place other : Place} (ne : other ≠ place) :
    (b.put place c).content other = b.content other := by
  rw [put]
  split
  · exact Function.update_of_ne ne _ _
  · rfl

end Books

/-! ## Effects -/

/-- Whether a callee is a hook. -/
def isHook : Callee → Bool
  | .hook _ => true
  | _ => false

/-- The variables that a call may write a number into. -/
def writes (call : Call) (v : Var) : Prop :=
  .address (.var v) ∈ call.args ∨ isHook call.callee ∧ .var v ∈ call.args

/-- The slot that a launch leaves an event in. -/
def eventOf (call : Call) : Option Expr :=
  match call.callee, call.args.getLast? with
  | .clEnqueueNDRangeKernel, some (.address slot) => some slot
  | _, _ => none

theorem eventOf_launch (args : List Expr) (last : Expr) :
    eventOf ⟨.clEnqueueNDRangeKernel, args ++ [last]⟩ =
      match last with
      | .address slot => some slot
      | _ => none := by
  simp only [eventOf, List.getLast?_append, List.getLast?_singleton]
  cases last <;> rfl

/-- What a call whose result is stored in a variable does to the books if it is done or fails. -/
def Books.Stores (target : Var) (call : Call) (event : Option Place) (done : Bool)
    (b c : Books) : Prop :=
  match releaser? call.callee, event, done with
  | some callee, _, true => Books.Gains (.var target) callee b c
  | some _, _, false => c = b.put (.var target) .null
  | none, some slot, true => Books.Gains slot .clReleaseEvent (b.put (.var target) .other) c
  | none, _, _ => c = b.put (.var target) .other

namespace Ledger

/-- A call is made, and its result is stored in a variable. -/
def Stores (target : Var) (call : Call) (a b : Ledger) : Prop :=
  ∃ done : Bool,
    a.books.Stores target call ((eventOf call).bind a.place?) done b.books ∧
      (reportsStatus target call → (b.Succeeded ↔ done)) ∧
      a.Touches (fun v => v = target ∨ writes call v) b

/-- A variable is declared; one that is not initialized may hold anything. -/
def Declares (d : Declarator) (a b : Ledger) : Prop :=
  match d.initial with
  | .none => b.books = (a.books.put (.var d.var) .other).fill d.var .other ∧
      a.Touches (· = d.var) b
  | .value e => b.books = a.books.put (.var d.var) (if e = .null then .null else .other) ∧
      a.Touches (· = d.var) b
  | .result call => a.Stores d.var call b
  | .nulls _ => b.books = a.books.fill d.var .null ∧ a.Touches (· = d.var) b

/-- Variables are declared one after the other. -/
def DeclaresAll : List Declarator → Ledger → Ledger → Prop
  | [], a, b => b = a
  | d :: ds, a, b => ∃ c, a.Declares d c ∧ DeclaresAll ds c b

/-- A value is assigned. -/
def Assigns (target value : Expr) (a b : Ledger) : Prop :=
  b.books = (a.place? target).elim a.books
      (a.books.put · (if value = .null then .null else .other)) ∧
    a.Touches (target = .var ·) b ∧
    ∀ v n, target = .var v → value = .number n → b.number v = n

/-- A call is made whose result is not used. -/
def Performs (call : Call) (a b : Ledger) : Prop :=
  b.books =
      (if isReleaser call.callee then
        a.books.release call.callee ((call.args.head?).bind a.place?)
      else a.books) ∧
    a.Touches (writes call) b

/-- The effect of a statement without control. -/
def Effect : Stmt → Ledger → Ledger → Prop
  | .declare _ items, a, b => a.DeclaresAll items b
  | .declareList _ var _ _, a, b =>
    b.books = (a.books.put (.var var) .other).fill var .other ∧ a.Touches (· = var) b
  | .assign target value, a, b => a.Assigns target value b
  | .increase target _, a, b => b.books = a.books ∧ a.Touches (target = .var ·) b
  | .increment var, a, b => b.books = a.books ∧ a.Touches (· = var) b
  | .store (.var target) call, a, b => a.Stores target call b
  | .store _ _, _, _ => False
  | .perform call, a, b => a.Performs call b
  | _, _, _ => False

/-- What is known of the value of a condition. -/
def truth (a : Ledger) (e : Expr) : Option Bool :=
  if e = Code.succeeded then
    some (a.number .callStatus = 0)
  else
    match ((a.place? e).filter Place.kept).map a.books.content with
    | some .null => some false
    | some (.resource _) => some true
    | _ => none

end Ledger

namespace Ledger

variable {a : Ledger} {e : Expr} {place : Place}

theorem truth_of_place (located : a.place? e = some place) (kept : place.kept) :
    a.truth e =
      match a.books.content place with
      | .null => some false
      | .resource _ => some true
      | .other => none := by
  have ne : e ≠ Code.succeeded := by
    rintro rfl
    simp [place?, Code.succeeded] at located
  cases content : a.books.content place <;>
    simp [truth, ne, located, Option.filter, kept, content]

end Ledger

/-- The program as a machine that keeps a ledger. -/
def ledgerMachine : Machine Ledger where
  effect := Ledger.Effect
  test c a given b := b = a ∧ ∀ e, c = .holds e → ∀ known ∈ a.truth e, given = known

/-! ## The goal -/

/-- Whether a deed releases a resource. -/
def Deed.releases (r : Resource) : Deed → Bool
  | .release _ what => what = .resource r
  | .acquire _ => false

@[simp]
theorem Deed.releases_acquire (r s : Resource) : (acquire s).releases r = false := rfl

@[simp]
theorem Deed.releases_release (r : Resource) (callee : Callee) (what : Content) :
    (release callee what).releases r = decide (what = .resource r) := rfl

/-- Everything that was acquired has been released once, and nothing else has been released. -/
structure Settled (deeds : List Deed) : Prop where
  /-- Nothing is acquired twice. -/
  acquired_once : ∀ r, deeds.count (.acquire r) ≤ 1
  /-- Everything acquired is released exactly once. -/
  released_once : ∀ r, .acquire r ∈ deeds → deeds.countP (·.releases r) = 1
  /-- Everything released was acquired before, and it is released by the call for it. -/
  acquired_before : ∀ behind callee what before,
    deeds = behind ++ .release callee what :: before →
      ∃ r, what = .resource r ∧ callee = r.releaser ∧ .acquire r ∈ before

end KernelHost.Host
