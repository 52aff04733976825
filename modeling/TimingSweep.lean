import TimingSweep.Command.Batch
import TimingSweep.Command.Single
import TimingSweep.Duration
import TimingSweep.Main
import TimingSweep.Proofs.Axes
import TimingSweep.Proofs.BatchPlots
import TimingSweep.Proofs.ChartBounds
import TimingSweep.Proofs.CommandLines
import TimingSweep.Proofs.DistinctSizes
import TimingSweep.Proofs.ExecutableNames
import TimingSweep.Proofs.Labels
import TimingSweep.Proofs.LastTimeLine
import TimingSweep.Proofs.LoadedSettings
import TimingSweep.Proofs.Measurements
import TimingSweep.Proofs.Objections
import TimingSweep.Proofs.PlottedOrder
import TimingSweep.Proofs.PlottedPoints
import TimingSweep.Proofs.Presentations
import TimingSweep.Proofs.PrintedZeros
import TimingSweep.Proofs.QuotedTexts
import TimingSweep.Proofs.Refusals
import TimingSweep.Proofs.RegistryTables
import TimingSweep.Proofs.ReportContents
import TimingSweep.Proofs.ReportDocuments
import TimingSweep.Proofs.ReportedSigns
import TimingSweep.Proofs.RequestDocuments
import TimingSweep.Proofs.ShortWrites
import TimingSweep.Proofs.SingleSweeps
import TimingSweep.Proofs.SpokenDurations
