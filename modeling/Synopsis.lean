import Synopsis.Declaration
import Synopsis.Main
import Synopsis.Proofs.ConfigFiles
import Synopsis.Proofs.DeclarationRoundTrip
import Synopsis.Proofs.EmphasisTwice
import Synopsis.Proofs.EnclosurePlaces
import Synopsis.Proofs.NamePolicies
import Synopsis.Proofs.ParameterOrder
import Synopsis.Proofs.ReportLevels
import Synopsis.Proofs.ReportLines
import Synopsis.Proofs.RunEffects
import Synopsis.Proofs.SemicolonJoints
import Synopsis.Proofs.TableComparison
import Synopsis.Proofs.TokenLayout
import Synopsis.Proofs.TypeAgreement
import Synopsis.Proofs.TypeNormalForm
import Synopsis.Proofs.VariantData
import Synopsis.Proofs.VariantLetters
