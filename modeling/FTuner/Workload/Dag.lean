import FTuner.Hardware.Descriptor

namespace FTuner

/-! # Workloads

The part of a compute DAG the hardware-aligned search reads: the iterators of each stage of
`init_state`, the loads in the body of a reduction stage (as `HwExprExtractor` collects
them), and the extents of iterators and split steps as expressions over the shape
variables, evaluated under one workload instance by `DynShapeVarReplacer`.
-/

/-- An extent over the shape variables. -/
inductive ShapeExpr where
  | const (value : Int)
  | shapeVar (name : String)
  | add (left right : ShapeExpr)
  | mul (left right : ShapeExpr)
  deriving DecidableEq, Repr

/-- `shape_var_value_map`: `Set(shape_vars[i]->name_hint, wkl_inst[i])` for every shape
variable; a later `Set` of the same name wins, so it is looked up first. -/
def bindShapeVars : List String → List Int → Except Fault (List (String × Int))
  | [], _ => .ok []
  | _ :: _, [] => .error (.outOfRange "wkl_inst")
  | name :: names, value :: values => do
      let later ← bindShapeVars names values
      pure (later ++ [(name, value)])

/-- `GetIntImm(analyzer.Simplify(replacer(expr)))`; the replacer is fatal on an unbound
shape variable. -/
def ShapeExpr.eval (binding : List (String × Int)) : ShapeExpr → Except Fault Int
  | .const value => .ok value
  | .shapeVar name =>
      match binding.lookup name with
      | some value => .ok value
      | none => .error (.fatal "Dynamic Axis Node has not been found")
  | .add left right => do pure ((← left.eval binding) + (← right.eval binding))
  | .mul left right => do pure ((← left.eval binding) * (← right.eval binding))

inductive IteratorKind where
  | spatial
  | reduction
  | mixed
  | special
  deriving DecidableEq, Repr

structure Iterator where
  name : String
  kind : IteratorKind
  extent : ShapeExpr
  deriving DecidableEq, Repr

/-- An index of a `ProducerLoad`; only a `Var` has a `name_hint`. -/
inductive IndexExpr where
  | var (name : String)
  | other
  deriving DecidableEq, Repr

/-- The expression forms `HwExprExtractor` visits; `other` is any node it has no visitor for,
on which `ExprFunctor` is fatal. -/
inductive BodyExpr where
  | reduce (source : List BodyExpr)
  | mul (left right : BodyExpr)
  | load (producer : String) (indices : List IndexExpr)
  | other
  deriving Repr

structure ProducerLoad where
  producer : String
  indices : List IndexExpr
  deriving DecidableEq, Repr

mutual
/-- `HwExprExtractor::VisitExpr`: the loads of an expression in visiting order.  Every visitor
returns `true`, so the conjunctions of `VisitBinary` and of the reduce loop never cut a
visit short. -/
def BodyExpr.extract : BodyExpr → Except Fault (List ProducerLoad)
  | .reduce source => extractAll source
  | .mul left right => do pure ((← left.extract) ++ (← right.extract))
  | .load producer indices => .ok [⟨producer, indices⟩]
  | .other => .error (.fatal "Do not have a default for the node")
def extractAll : List BodyExpr → Except Fault (List ProducerLoad)
  | [] => .ok []
  | expr :: rest => do pure ((← expr.extract) ++ (← extractAll rest))
end

structure Stage where
  iters : List Iterator
  /-- `op.as<te::ComputeOpNode>()->body`. -/
  body : List BodyExpr
  deriving Repr

/-- An operation of `compute_dag->ops`; a compute op records the byte widths of its inputs. -/
inductive Operation where
  | placeholder
  | compute (inputBytes : List Int)
  deriving DecidableEq, Repr

structure ComputeDag where
  ops : List Operation
  /-- `init_state->stages`. -/
  stages : List Stage
  deriving Repr

/-- `tensor_type_size`: the dtype width of the first input of the first compute op, `4` when
there is no compute op. -/
def ComputeDag.tensorTypeSize (dag : ComputeDag) : Except Fault Int :=
  match dag.ops.findSome? (fun | .compute bytes => some bytes | .placeholder => none) with
  | some bytes => readAt bytes 0 "InputTensors()"
  | none => .ok 4

namespace Stage

def spaceNames (stage : Stage) : List String :=
  (stage.iters.filter (·.kind == .spatial)).map (·.name)

def reduceNames (stage : Stage) : List String :=
  (stage.iters.filter (·.kind == .reduction)).map (·.name)

/-- Modelled from the spec: `HasReduceIter` is defined in the auto-scheduler's `utils.h`, not
under src/; a stage "with reduction iterators" is one with an iterator that is not spatial. -/
def hasReduceIter (stage : Stage) : Bool :=
  stage.iters.any (·.kind != .spatial)

end Stage

/-- The `space_names`/`reduce_names` loop of `GetAlignedTile` and `ConfigFilter`: the lists are
cleared and refilled for each stage in turn until one has a reduction iterator. -/
def iterNamesFrom (names : List String × List String) : List Stage → List String × List String
  | [] => names
  | stage :: rest =>
      if stage.reduceNames.isEmpty then iterNamesFrom (stage.spaceNames, stage.reduceNames) rest
      else (stage.spaceNames, stage.reduceNames)

def iterNames (stages : List Stage) : List String × List String :=
  iterNamesFrom ([], []) stages

/-- `space_dims`/`reduce_dims` of `EfficientSearch`: the iterator counts of the last stage that
has a reduction iterator. -/
def efficientSearchDims (stages : List Stage) : Nat × Nat :=
  stages.foldl (fun dims stage =>
    if 0 < stage.reduceNames.length then (stage.spaceNames.length, stage.reduceNames.length)
    else dims) (0, 0)

/-- The `expr_extractor` list of `EmitConfig`: one extractor per body expression of the first
stage with a reduction iterator. -/
def exprExtractor : List Stage → Except Fault (List (List ProducerLoad))
  | [] => .ok []
  | stage :: rest =>
      if stage.hasReduceIter then stage.body.mapM BodyExpr.extract else exprExtractor rest

/-- The fields of `SearchTask` the hardware-aligned search reads. -/
structure SearchTask where
  computeDag : ComputeDag
  shapeVars : List String
  wklInsts : List (List Int)
  hardwareApi : HardwareAPI
  deriving Repr

end FTuner
