import InterPred.Word
import InterPred.Params
import InterPred.Error
import InterPred.Clip
import InterPred.Shift
import InterPred.Taps.Tables
import InterPred.Taps
import InterPred.Block
import InterPred.Observer
import InterPred.Interp.Kernel
import InterPred.Interp
import InterPred.Interp.Run
import InterPred.Kernels
import InterPred.Weighted.Slice
import InterPred.Weighted.Derive
import InterPred.Weighted.Combine
import InterPred.Weighted
import InterPred.Geo.Partition
import InterPred.Geo.Mask
import InterPred.Geo.Blend
import InterPred.Proofs.Taps
import InterPred.Proofs.Rounding
import InterPred.Proofs.Layout
import InterPred.Proofs.Passes
import InterPred.Proofs.Separable
import InterPred.Proofs.Impulse
import InterPred.Proofs.Shortcuts
import InterPred.Proofs.Precision
import InterPred.Proofs.Direct
import InterPred.Proofs.OutputRange
import InterPred.Proofs.InPlace
import InterPred.Proofs.NoPanic
import InterPred.Proofs.Words
import InterPred.Proofs.Bounds
import InterPred.Proofs.Footprint
import InterPred.Proofs.Reads
import InterPred.Proofs.Dispatch
import InterPred.Proofs.WeightKernels
import InterPred.Proofs.SameReference
import InterPred.Proofs.Neutral
import InterPred.Proofs.SliceStore
import InterPred.Proofs.LayoutChecks
import InterPred.Proofs.Registry
import InterPred.Proofs.Headroom
import InterPred.Proofs.FlatLevel
import InterPred.Proofs.Refusals
import InterPred.Proofs.UnitWeight
import InterPred.Proofs.Derivation
import InterPred.Proofs.Exchange
import InterPred.Proofs.MaskCache
import InterPred.Proofs.Support
import InterPred.Proofs.BlendConvex
import InterPred.Proofs.Conformant
