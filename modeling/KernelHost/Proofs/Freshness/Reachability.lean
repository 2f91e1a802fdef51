import KernelHost.Proofs.Execution.Progress
import KernelHost.Proofs.Freshness.Harmless
import KernelHost.Proofs.Plan.Shape
import KernelHost.Proofs.Schedule.Tiers

/-!
# Reachability

As long as the runtime does what it is asked for, the host program gets to every launch of a plan,
and from there to the end of the pass.  Hence what is proved of these places is not proved of
nothing.
-/

namespace KernelHost.Host

open Code (Call Condition Declarator Expr Guide Reaches Stmt Var)

variable {α : Type} {p : Plan}

namespace Data

/-- There is room for further buffers. -/
def Roomy (a : Data α) : Prop :=
  ∃ bound, ∀ n, bound ≤ n → a.wiring.region n = none

variable {a : Data α}

theorem Roomy.congr {b : Data α} (roomy : a.Roomy) (same : b.wiring.region = a.wiring.region) :
    b.Roomy := by
  obtain ⟨bound, free⟩ := roomy
  exact ⟨bound, fun n le => by rw [same, free n le]⟩

theorem Roomy.put (roomy : a.Roomy) (n : Nat) (r : Option (Region α)) :
    ({ a with wiring := a.wiring.put n r } : Data α).Roomy := by
  obtain ⟨bound, free⟩ := roomy
  refine ⟨max bound (n + 1), fun m le => ?_⟩
  have other : m ≠ n := by omega
  simp [Wiring.put, other, free m (by omega)]

theorem exists_redefines (roomy : a.Roomy) (v : Var) : ∃ b, a.Redefines v b ∧ b.Roomy := by
  cases v with
  | host name => exact ⟨_, ⟨a.host name, rfl⟩, roomy.congr rfl⟩
  | buffer | kernel => exact ⟨_, rfl, roomy.congr rfl⟩
  | _ => exact ⟨a, rfl, roomy⟩

theorem exists_rewires (roomy : a.Roomy) : ∃ b, a.Rewires b ∧ b.Roomy :=
  ⟨a, ⟨a.wiring, rfl⟩, roomy⟩

theorem exists_makes (roomy : a.Roomy) (call : Call) : ∃ b, a.Makes call b ∧ b.Roomy := by
  unfold Makes
  split
  · unfold Binds
    split
    · exact ⟨_, rfl, roomy.congr rfl⟩
    · exact exists_rewires roomy
  · unfold Uploads
    split
    · exact ⟨_, rfl, roomy.put _ _⟩
    · exact exists_rewires roomy
  · unfold Downloads
    split
    · exact ⟨_, rfl, roomy.congr rfl⟩
    · exact ⟨a, ⟨a.host, rfl⟩, roomy⟩
  · unfold Launches
    split
    · exact ⟨a, ⟨a.wiring.region, rfl, fun n => .inl rfl⟩, roomy⟩
    · exact exists_rewires roomy
  · unfold Frees
    split
    · rename_i name _
      refine ⟨_, rfl, ?_⟩
      cases a.wiring.handle name with
      | none => exact roomy.congr rfl
      | some n => exact roomy.put n none
    · exact exists_rewires roomy
  · exact ⟨a, ⟨a.host, rfl, fun _ _ => rfl⟩, roomy⟩

theorem exists_creates (roomy : a.Roomy) (name : String) (args : List Expr) :
    ∃ b, a.Creates name args b ∧ b.Roomy := by
  unfold Creates
  split
  · rename_i flags size address status
    obtain ⟨n, free⟩ := roomy
    have room : a.Roomy := ⟨n, free⟩
    refine ⟨_, ⟨n, ((a.whole? size address).map a.host).getD (a.host name),
      free n (Nat.le_refl n), fun _ source mem => ?_, rfl⟩, ?_⟩
    · rw [Option.mem_def.mp mem, Option.map_some, Option.getD_some]
    · exact (room.put n (some ⟨size, _⟩)).congr rfl
  · exact exists_rewires roomy

theorem exists_yields (roomy : a.Roomy) (v : Var) (call : Call) :
    ∃ b, a.Yields v call b ∧ b.Roomy := by
  unfold Yields
  split
  · exact exists_creates roomy _ _
  · obtain ⟨c, made, roomy⟩ := exists_makes roomy call
    obtain ⟨b, redefined, roomy⟩ := exists_redefines roomy _
    exact ⟨b, ⟨c, made, redefined⟩, roomy⟩

theorem exists_initializes (roomy : a.Roomy) (d : Declarator) :
    ∃ b, a.Initializes d b ∧ b.Roomy := by
  unfold Initializes
  cases d.initial with
  | result call => exact exists_makes roomy call
  | _ => exact ⟨a, rfl, roomy⟩

theorem exists_introduces (roomy : a.Roomy) (type : String) (d : Declarator) :
    ∃ b, a.Introduces type d b ∧ b.Roomy := by
  unfold Introduces
  cases d.var with
  | host name => exact ⟨_, ⟨a.host name, rfl⟩, roomy.congr rfl⟩
  | _ => exact exists_redefines roomy _

theorem exists_declares (roomy : a.Roomy) (type : String) (d : Declarator) :
    ∃ b, a.Declares type d b ∧ b.Roomy := by
  obtain ⟨c, initialized, roomy⟩ := exists_initializes roomy d
  obtain ⟨b, introduced, roomy⟩ := exists_introduces roomy type d
  exact ⟨b, ⟨c, initialized, introduced⟩, roomy⟩

theorem exists_declaresAll (roomy : a.Roomy) (type : String) (ds : List Declarator) :
    ∃ b, a.DeclaresAll type ds b ∧ b.Roomy := by
  induction ds generalizing a with
  | nil => exact ⟨a, rfl, roomy⟩
  | cons d ds ih =>
      obtain ⟨c, declared, roomy⟩ := exists_declares roomy type d
      obtain ⟨b, others, roomy⟩ := ih roomy
      exact ⟨b, ⟨c, declared, others⟩, roomy⟩

theorem exists_assigns (roomy : a.Roomy) (target : Expr) : ∃ b, a.Assigns target b ∧ b.Roomy := by
  unfold Assigns
  split
  · exact exists_redefines roomy _
  · exact ⟨a, trivial, roomy⟩

end Data

/-- The host program is led on while there is room and calls succeed. -/
def runGuide (α : Type) (p : Plan) : Guide (Stores α) where
  machine := storeMachine α
  program := body p
  good a := a.data.Roomy ∧ a.succeeded = true
  mayFail := False

theorem makes_of_plain {s : Stmt} (plain : s.isPlain) (ordinary : isOrdinary s) :
    (runGuide α p).Makes s := by
  intro a ⟨roomy, _⟩
  have of_data {R : Data α → Prop} (moves : ∃ b, R b ∧ b.Roomy) :
      ∃ b : Stores α, R b.data ∧ (runGuide α p).good b := by
    obtain ⟨b, done, roomy⟩ := moves
    exact ⟨⟨b, true⟩, done, roomy, rfl⟩
  cases s with
  | declare type items => exact of_data (Data.exists_declaresAll roomy type items)
  | declareList type var size => exact of_data (Data.exists_declares roomy type { var, size })
  | assign target | increase target => exact of_data (Data.exists_assigns roomy target)
  | increment v => exact of_data (Data.exists_redefines roomy v)
  | perform call => exact of_data (Data.exists_makes roomy call)
  | store target call =>
      cases target with
      | var v =>
          obtain ⟨b, yields, roomy⟩ := Data.exists_yields roomy v call
          exact ⟨⟨b, true⟩, ⟨true, yields, fun _ => rfl⟩, roomy, rfl⟩
      | _ => simp [isOrdinary] at ordinary
  | _ => simp [Stmt.isPlain] at plain

theorem able_of_ordinary {s : Stmt} (ordinary : isOrdinary s) : (runGuide α p).Able s := by
  have given (e : Expr) (a : Stores α) (good : (runGuide α p).good a) :
      ∃ given b, (storeMachine α).test (.holds e) a given b ∧ (runGuide α p).good b :=
    ⟨true, a, ⟨rfl, fun _ => good.2.symm⟩, good⟩
  cases s with
  | leave | cleanupLabel => simp [isOrdinary] at ordinary
  | ensure c f =>
      intro a good
      cases c with
      | holds e => exact .inl ⟨a, ⟨rfl, fun _ => good.2.symm⟩, good⟩
      | givesOne call =>
          obtain ⟨b, made, roomy⟩ := Data.exists_makes good.1 call
          exact .inl ⟨⟨b, true⟩, made, roomy, rfl⟩
  | guarded c call => exact ⟨makes_of_plain rfl rfl, given c⟩
  | «when» c | choose c => exact given c
  | count index => exact fun k => makes_of_plain rfl rfl
  | repeatWhile c =>
      have flag : c = .var .loopFlag := by simpa [isOrdinary] using ordinary
      exact fun a good => ⟨a, ⟨rfl, fun same => by simp [flag, Code.succeeded] at same⟩, good⟩
  | _ => exact fun plain => makes_of_plain plain ordinary

/-- Ordinary statements can be passed. -/
theorem exists_reaches_behind {ss : List Stmt} (ordinary : Ordinary ss) (rest : List Stmt)
    {a : Stores α} (good : (runGuide α p).good a) :
    ∃ b, (runGuide α p).good b ∧
      Reaches (storeMachine α) (body p) ⟨ss ++ rest, a⟩ ⟨rest, b⟩ := by
  have passable := Guide.Passable.of_allWithin (G := runGuide α p) ss
    fun s mem => able_of_ordinary (ordinary s mem)
  obtain ⟨b, good, behind | ⟨may, -⟩⟩ := passable a rest good
  · exact ⟨b, good, behind⟩
  · exact may.elim

/-- The host program gets to a pass. -/
theorem exists_reaches_pass (p : Plan) {a : Stores α} (good : (runGuide α p).good a) :
    ∃ perPass rest b, (runGuide α p).good b ∧
      Reaches (storeMachine α) (body p) ⟨body p, a⟩ ⟨pass p perPass ++ rest, b⟩ := by
  have front : Ordinary (declarations p ++ hostVariables p ++ hookCall p .preamble ++ setup p) := by
    simp [(sure_declarations p).ordinary, ordinary_hostVariables, ordinary_setup]
  have split : body p = (declarations p ++ hostVariables p ++ hookCall p .preamble ++ setup p) ++
      (run p ++ (verdict p ++ cleanup p)) := by
    simp [body]
  obtain ⟨b, good, reached⟩ :=
    exists_reaches_behind front (run p ++ (verdict p ++ cleanup p)) good
  rw [← split] at reached
  rw [run] at reached
  split at reached
  · exact ⟨false, _, b, good, reached⟩
  · let again : List Stmt := hookCall p .loopPostamble ++ Stmt.when (.var .loopFlag)
      [.repeatWhile (.var .loopFlag)
        (hookCall p .loopPreamble ++ pass p true ++ hookCall p .loopPostamble)] ::
      (verdict p ++ cleanup p)
    have hook : Ordinary (hookCall p .loopPreamble) := ordinary_hookCall p _
    obtain ⟨c, good, reached'⟩ := exists_reaches_behind hook (pass p true ++ again) good
    refine ⟨true, again, c, good, reached.trans ?_⟩
    refine .head (.idle rfl) (.head (.idle rfl) (.head .again ?_))
    simpa [Reaches, again] using reached'

/-! ## Launches -/

/-- Every kernel of a plan is launched in a pass, and passes are counted behind their launches. -/
theorem exists_pass_split (wellFormed : p.WellFormed) {k : PlannedKernel} (mem : k ∈ p.kernels)
    (perPass : Bool) :
    ∃ front s back, launched? s = some k.kernel.ident ∧ Ordinary front ∧ Ordinary (s :: back) ∧
      pass p perPass = front ++ s :: back ++ [.increment .iterations] := by
  obtain ⟨i, found⟩ := List.mem_iff_getElem?.mp mem
  have kernel : (p.kernels.map (·.kernel))[i]? = some k.kernel := by
    simp [found]
  obtain ⟨tier, tier_mem, key⟩ :=
    Schedule.exists_tier wellFormed.schedule (List.mem_of_getElem? kernel)
  have inTier : i ∈ tier.kernels := by
    rw [Schedule.tier_kernels wellFormed.schedule tier_mem, Schedule.mem_indicesOf]
    exact ⟨k.kernel, kernel, key.symm⟩
  obtain ⟨l, l_mem, rfl⟩ : ∃ l ∈ p.schedule.launches, l.kernel = i := by
    rw [← List.mem_map, Schedule.launches_kernels]
    exact List.mem_flatMap.mpr ⟨tier, tier_mem, inTier⟩
  obtain ⟨s, rest, launch_eq, launched⟩ : ∃ s rest, launch p k.kernel l = s :: rest ∧
      launched? s = some k.kernel.ident := ⟨_, _, rfl, rfl⟩
  have s_mem : s ∈ launches p := by
    refine List.mem_flatMap.mpr ⟨l, l_mem, ?_⟩
    simp [found, launch_eq]
  have parts : pass p perPass = uploadPhase p perPass ++ launchPhase p perPass ++
      downloadPhase p perPass ++ eventPhase p ++ [Stmt.blank] ++ [Stmt.increment .iterations] := by
    simp [pass]
  have ordinary : Ordinary (uploadPhase p perPass ++ launchPhase p perPass ++
      downloadPhase p perPass ++ eventPhase p ++ [Stmt.blank]) := by
    have ordinary := ordinary_pass p perPass
    rw [parts] at ordinary
    exact (Code.Each.append_iff.mp ordinary).1
  have within : s ∈ uploadPhase p perPass ++ launchPhase p perPass ++
      downloadPhase p perPass ++ eventPhase p ++ [Stmt.blank] := by
    simp [launchPhase, phase, s_mem]
  obtain ⟨front, back, split⟩ := List.append_of_mem within
  rw [split] at ordinary parts
  obtain ⟨first, second⟩ := Code.Each.append_iff.mp ordinary
  exact ⟨front, s, back, launched, first, second, parts⟩

/-- The host program gets to the launch of a kernel, and from there to the end of the pass. -/
theorem exists_reaches_launch (wellFormed : p.WellFormed) {k : PlannedKernel}
    (mem : k ∈ p.kernels) {a : Stores α} (good : (runGuide α p).good a) :
    ∃ b c s behind rest, launched? s = some k.kernel.ident ∧
      Reaches (storeMachine α) (body p) ⟨body p, a⟩ ⟨s :: behind, b⟩ ∧
      Reaches (storeMachine α) (body p) ⟨s :: behind, b⟩ ⟨.increment .iterations :: rest, c⟩ := by
  obtain ⟨perPass, rest, d, good, begins⟩ := exists_reaches_pass p good
  obtain ⟨front, s, back, launched, first, second, split⟩ :=
    exists_pass_split wellFormed mem perPass
  obtain ⟨b, good, launches⟩ :=
    exists_reaches_behind first (s :: back ++ .increment .iterations :: rest) good
  obtain ⟨c, -, ends⟩ := exists_reaches_behind second (.increment .iterations :: rest) good
  refine ⟨b, c, s, back ++ .increment .iterations :: rest, rest, launched, begins.trans ?_, ends⟩
  simpa [Reaches, split] using launches

end KernelHost.Host
