import FTuner.Hardware.Descriptor
import FTuner.Workload.Dag
import FTuner.Hardware.AlignedTile
import FTuner.Hardware.ConfigFilter
import FTuner.Hardware.EmitConfig
import FTuner.Hardware.Carry
import FTuner.Hardware.ConfigWalk
import FTuner.Hardware.TileGeometry
import FTuner.Hardware.Emitted
import FTuner.Hardware.Termination
import FTuner.Filters.Candidates
import FTuner.Filters.Relaxation
import FTuner.Filters.Survivors
import FTuner.Filters.Capacity
import FTuner.Policy.Cache
import FTuner.Policy.Search
import FTuner.Policy.ConfigOrder
import FTuner.Policy.EfficientSearch
import FTuner.Policy.Dispatch
import FTuner.Policy.Pipeline
import FTuner.Evolution.Retention
import FTuner.Evolution.Mutation
import FTuner.Evolution.Search
import FTuner.Evolution.SampleInit
