import Histograms.Binary64
import Histograms.Decimal.Shortest
import Histograms.Decimal.Notation
import Histograms.Error
import Histograms.Axis.Options
import Histograms.Axis.Regular
import Histograms.Axis.Integer
import Histograms.Axis.Category
import Histograms.Axis.Basic
import Histograms.Index
import Histograms.Counts.Width
import Histograms.Counts.Count
import Histograms.Counts.Basic
import Histograms.Cell.Basic
import Histograms.Cell.Sum
import Histograms.Cell.Mean
import Histograms.Store.Basic
import Histograms.Store.Counts
import Histograms.Store.CellVec
import Histograms.Store.CellArray
import Histograms.Fill
import Histograms.Histogram
import Histograms.Text.GraphemeExtend
import Histograms.Text.Printable
import Histograms.Text.Quote
import Histograms.Text.Inspect
import Histograms.Session.Json
import Histograms.Session.Report
import Histograms.Session.Decode
import Histograms.Session.Axes
import Histograms.Session.Cells
import Histograms.Session.Steps
import Histograms.Session.Counting
import Histograms.Session.Histogram
import Histograms.Session.Accumulator
import Histograms.Session.CellStore
import Histograms.Session.Arguments
import Histograms.Session.Respond
import Histograms.Proofs.CellIndex
import Histograms.Proofs.ExactCounts
import Histograms.Proofs.Stores
import Histograms.Proofs.Shape
import Histograms.Proofs.Filling
import Histograms.Proofs.Refusals
import Histograms.Proofs.Ladder
import Histograms.Proofs.OrderFree
import Histograms.Proofs.Rebuild
import Histograms.Proofs.Binning
import Histograms.Proofs.RoleChecks
import Histograms.Proofs.Scaling
import Histograms.Proofs.MergeOrder
import Histograms.Proofs.Welford
import Histograms.Proofs.PairwiseMerge
import Histograms.Proofs.ValueEquality
import Histograms.Proofs.Totals
import Histograms.Proofs.Roles
import Histograms.Proofs.FloatStore
import Histograms.Proofs.Packing
import Histograms.Proofs.IntegerBins
import Histograms.Proofs.Rounding
import Histograms.Proofs.RoundedOps
import Histograms.Proofs.FloatOrder
import Histograms.Proofs.RegularBins
import Histograms.Proofs.Widening
import Histograms.Proofs.Capacity
