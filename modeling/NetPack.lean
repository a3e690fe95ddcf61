import NetPack.Artifact.Basic
import NetPack.Artifact.Codec
import NetPack.Binary32
import NetPack.Bytes
import NetPack.CommandLine.Arguments
import NetPack.CommandLine.Command
import NetPack.CommandLine.Number
import NetPack.CommandLine.Run
import NetPack.Config.Basic
import NetPack.Config.Read
import NetPack.Config.Write
import NetPack.Container.Basic
import NetPack.Container.Bundle
import NetPack.Container.Error
import NetPack.Convert.Batch
import NetPack.Convert.Compile
import NetPack.Convert.Error
import NetPack.Convert.Export
import NetPack.Convert.Fold
import NetPack.Convert.Request
import NetPack.Convert.Stages
import NetPack.Decimal.Fixed
import NetPack.Decimal.Notation
import NetPack.Decimal.Shortest
import NetPack.Document
import NetPack.DomainName.Direction
import NetPack.DomainName.Joining
import NetPack.DomainName.Label
import NetPack.DomainName.Mapping
import NetPack.DomainName.Punycode
import NetPack.Exchange.Codec
import NetPack.Exchange.Error
import NetPack.Exchange.Lift
import NetPack.Exchange.Lower
import NetPack.Exchange.Model
import NetPack.Exchange.Schema
import NetPack.Exchange.Structure
import NetPack.Exchange.Wire
import NetPack.Files.Error
import NetPack.Files.Formats
import NetPack.Files.Memory
import NetPack.Files.Path
import NetPack.Files.Replace
import NetPack.Files.Store
import NetPack.Files.Unreliable
import NetPack.Graph.Basic
import NetPack.Graph.Error
import NetPack.Graph.Evaluate
import NetPack.Graph.Json
import NetPack.Graph.Validate
import NetPack.Input.Descriptor
import NetPack.Input.Spec
import NetPack.Json.Basic
import NetPack.Json.Decode
import NetPack.Json.Number
import NetPack.Json.Reader
import NetPack.Json.Token
import NetPack.Json.Writer
import NetPack.Kernel.Activation
import NetPack.Kernel.BatchNorm
import NetPack.Kernel.Conv
import NetPack.Kernel.Linear
import NetPack.Kernel.Pool
import NetPack.Kernel.Softmax
import NetPack.Kernel.Window
import NetPack.Labels
import NetPack.Main
import NetPack.Metadata
import NetPack.Model.Basic
import NetPack.Model.Manifest
import NetPack.Op.Basic
import NetPack.Op.Json
import NetPack.Options
import NetPack.Outcome
import NetPack.Proofs.Agreement
import NetPack.Proofs.Artifacts
import NetPack.Proofs.Attempts
import NetPack.Proofs.BatchResults
import NetPack.Proofs.Batches
import NetPack.Proofs.Blocks
import NetPack.Proofs.ByteSizes
import NetPack.Proofs.Commuting
import NetPack.Proofs.Comparisons
import NetPack.Proofs.Compiling
import NetPack.Proofs.Configurations
import NetPack.Proofs.Containers
import NetPack.Proofs.DataFlow
import NetPack.Proofs.Decimals
import NetPack.Proofs.ElementCounts
import NetPack.Proofs.EntryPoints
import NetPack.Proofs.Evaluation
import NetPack.Proofs.Exchange.Accepted
import NetPack.Proofs.Exchange.Aliases
import NetPack.Proofs.Exchange.Captures
import NetPack.Proofs.Exchange.Constants
import NetPack.Proofs.Exchange.Definitions
import NetPack.Proofs.Exchange.Exported
import NetPack.Proofs.Exchange.Fields
import NetPack.Proofs.Exchange.GeneratedNames
import NetPack.Proofs.Exchange.Integers
import NetPack.Proofs.Exchange.Lifted
import NetPack.Proofs.Exchange.Lifting
import NetPack.Proofs.Exchange.Loading
import NetPack.Proofs.Exchange.Messages
import NetPack.Proofs.Exchange.Operands
import NetPack.Proofs.Exchange.Operators
import NetPack.Proofs.Exchange.Reexport
import NetPack.Proofs.Exchange.RoundTrip
import NetPack.Proofs.Exchange.Windows
import NetPack.Proofs.Exporting
import NetPack.Proofs.FailedCalls
import NetPack.Proofs.Failures
import NetPack.Proofs.Files
import NetPack.Proofs.FoldedPair
import NetPack.Proofs.Folding
import NetPack.Proofs.Frames
import NetPack.Proofs.Inference
import NetPack.Proofs.Json.Finite
import NetPack.Proofs.Json.Headers
import NetPack.Proofs.Json.Literals
import NetPack.Proofs.Json.Records
import NetPack.Proofs.Json.Rendering
import NetPack.Proofs.Json.Words
import NetPack.Proofs.Kernels.Cells
import NetPack.Proofs.Kernels.ChannelNormalization
import NetPack.Proofs.Kernels.ChannelScaling
import NetPack.Proofs.Kernels.Convolution
import NetPack.Proofs.Kernels.Coordinates
import NetPack.Proofs.Kernels.Dilation
import NetPack.Proofs.Kernels.GroupedConvolution
import NetPack.Proofs.Kernels.MaxPooling
import NetPack.Proofs.Kernels.Normalization
import NetPack.Proofs.Kernels.Pooling
import NetPack.Proofs.Kernels.Probabilities
import NetPack.Proofs.Kernels.Products
import NetPack.Proofs.Kernels.Rows
import NetPack.Proofs.Kernels.Samples
import NetPack.Proofs.Loading
import NetPack.Proofs.Lowering
import NetPack.Proofs.NodeNames
import NetPack.Proofs.Operations
import NetPack.Proofs.Orders
import NetPack.Proofs.Outcomes
import NetPack.Proofs.Paths
import NetPack.Proofs.Persistence
import NetPack.Proofs.Preprocessing
import NetPack.Proofs.Recording
import NetPack.Proofs.Reloading
import NetPack.Proofs.Remaining
import NetPack.Proofs.Replaying
import NetPack.Proofs.Rounding
import NetPack.Proofs.Samples
import NetPack.Proofs.SharedWeights
import NetPack.Proofs.Sizes
import NetPack.Proofs.Soundness
import NetPack.Proofs.Storable
import NetPack.Proofs.Tables
import NetPack.Proofs.Toml.Documents
import NetPack.Proofs.Toml.Integers
import NetPack.Proofs.Toml.Numbers
import NetPack.Proofs.Toml.Strings
import NetPack.Proofs.Tracing
import NetPack.Proofs.Trees
import NetPack.Proofs.Untouched
import NetPack.Proofs.Validity
import NetPack.Proofs.WholeWrites
import NetPack.Scalar
import NetPack.Table
import NetPack.Tensor.Basic
import NetPack.Tensor.DType
import NetPack.Tensor.Error
import NetPack.Tensor.Shape
import NetPack.Text.Blank
import NetPack.Text.Cased
import NetPack.Text.CodePoints
import NetPack.Text.Composed
import NetPack.Text.Hidden
import NetPack.Text.Lowercase
import NetPack.Text.Marks
import NetPack.Text.Quoted
import NetPack.Toml.Basic
import NetPack.Toml.Decode
import NetPack.Toml.Draft
import NetPack.Toml.Number
import NetPack.Toml.Reader
import NetPack.Toml.Scan
import NetPack.Toml.Text
import NetPack.Toml.Writer
import NetPack.Trace
import NetPack.Url.Basic
import NetPack.Url.Encoding
import NetPack.Url.Host
import NetPack.Url.Parse
import NetPack.Url.Source
import NetPack.Word
